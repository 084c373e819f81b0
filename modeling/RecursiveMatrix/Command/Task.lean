import RecursiveMatrix.EdgeList.Storage

/-!
# What commands do with files

A command uses at most one file. A `FileTask` names that use and says how to go on from its result,
so that what a command does is settled before any file is touched. Carrying the task out is left to
whoever holds the files: `Directory.perform` does it for a directory.
-/

namespace RecursiveMatrix

universe u v

/-- A computation that uses at most one file. -/
inductive FileTask (α : Type u) where
  /-- No file is used. -/
  | done (result : α)
  /-- Edges are saved. -/
  | save (path : OsText) (supply : EdgeSupply) (next : Except Failure Nat → α)
  /-- A loader's share of the edges in a file is loaded. -/
  | load (loader : Loader) (path : OsText) (next : Except Failure (List Edge) → α)

/-- Goes on from the result of a task. -/
def FileTask.map {α : Type u} {β : Type v} (f : α → β) : FileTask α → FileTask β
  | done result => done (f result)
  | save path supply next => save path supply fun written ↦ f (next written)
  | load loader path next => load loader path fun edges ↦ f (next edges)

/-- Carries out a task. A file that could not be saved is left as it was. -/
def Directory.perform {α : Type u} (d : Directory) : FileTask α → α × Directory
  | .done result => (result, d)
  | .save path supply next =>
    match d.saveEdges path supply with
    | .error failure => (next (.error failure), d)
    | .ok (written, d') => (next (.ok written), d')
  | .load loader path next => (next (d.loadEdges loader path), d)

theorem Directory.perform_map {α : Type u} {β : Type v} (d : Directory) (f : α → β)
    (task : FileTask α) :
    d.perform (task.map f) = (f (d.perform task).1, (d.perform task).2) := by
  cases task with
  | done => rfl
  | save path supply =>
    simp only [FileTask.map, perform]
    cases d.saveEdges path supply <;> rfl
  | load => rfl

end RecursiveMatrix
