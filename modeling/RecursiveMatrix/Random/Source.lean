/-!
# Sources of uniform values

A source hands out values in `[0, 1)` one by one. What it will hand out is a fixed sequence of
values, `value s 0, value s 1, …`, and drawing moves along that sequence: the source after `n`
draws is `skip n s`, and its values are those of `s` from the `n`-th on (`value_skip`). Everything
made from a source is made from a stretch of its values.
-/

namespace RecursiveMatrix

universe u

/-- A source of uniform values in `[0, 1)`. -/
class UniformSource (σ : Type u) where
  /-- The next value, and the source after it has been drawn. -/
  next : σ → Float × σ

namespace UniformSource

variable {σ : Type u} [UniformSource σ]

def skip : Nat → σ → σ
  | 0, s => s
  | n + 1, s => skip n (next s).2

/-- The `n`-th value of a source, counted from zero. -/
def value (s : σ) (n : Nat) : Float := (next (skip n s)).1

def draw : Nat → σ → List Float × σ
  | 0, s => ([], s)
  | n + 1, s =>
    let step := next s
    let rest := draw n step.2
    (step.1 :: rest.1, rest.2)

@[simp] theorem skip_zero (s : σ) : skip 0 s = s := rfl

theorem skip_succ (n : Nat) (s : σ) : skip (n + 1) s = skip n (next s).2 := rfl

theorem skip_add (m n : Nat) (s : σ) : skip (m + n) s = skip n (skip m s) := by
  induction m generalizing s with
  | zero => rw [Nat.zero_add, skip_zero]
  | succ m ih => rw [Nat.succ_add, skip_succ, ih, skip_succ]

theorem value_skip (m n : Nat) (s : σ) : value (skip m s) n = value s (m + n) := by
  rw [value, value, skip_add]

theorem draw_eq (n : Nat) (s : σ) : draw n s = ((List.range n).map (value s), skip n s) := by
  induction n generalizing s with
  | zero => rfl
  | succ n ih =>
    simp only [draw, ih, List.range_succ_eq_map, List.map_cons, List.map_map, skip_succ,
      Function.comp_def]
    rfl

end UniformSource

end RecursiveMatrix
