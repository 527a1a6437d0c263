/-!
# Tables

Objects that refer to one another are kept in tables and named by number.  Numbers start at one and are
never given twice; an object that is removed leaves its number unused.
-/

namespace EncodedFeed

/-- What a reference leads to. -/
inductive Kind
  | registry
  | output
  | encoder
  | pipeline
  | fallback
  | recorder
  | observer
  | recording
deriving DecidableEq, Repr

/-- The number of an object of a kind in its table. -/
structure Ref (kind : Kind) where
  number : Nat
deriving DecidableEq, Repr

/-- Objects by number. -/
structure Table (α : Type) where
  cells : Array (Option α) := #[]

namespace Table

variable {α : Type}

/-- The number the next object gets. -/
def next (t : Table α) : Nat := t.cells.size + 1

/-- The object with a number. -/
def get? (t : Table α) : Nat → Option α
  | 0 => none
  | n + 1 => (t.cells[n]?).join

/-- Add an object under the next number. -/
def add (t : Table α) (x : α) : Table α := ⟨t.cells.push (some x)⟩

/-- Change the object with a number, if there is one. -/
def modify (t : Table α) (n : Nat) (f : α → α) : Table α :=
  match n with
  | 0 => t
  | n + 1 => ⟨t.cells.modify n (·.map f)⟩

/-- Remove the object with a number. -/
def erase (t : Table α) (n : Nat) : Table α :=
  match n with
  | 0 => t
  | n + 1 => ⟨t.cells.modify n fun _ => none⟩

/-- All objects, by increasing number. -/
def toList (t : Table α) : List α := t.cells.toList.filterMap id

theorem get?_add (t : Table α) (x : α) (n : Nat) :
    (t.add x).get? n = if n = t.next then some x else t.get? n := by
  cases n with
  | zero => simp [get?, next]
  | succ n => simp only [get?, add, next, Array.getElem?_push, Nat.add_right_cancel_iff]; split <;> rfl

theorem get?_modify (t : Table α) (m : Nat) (f : α → α) (n : Nat) :
    (t.modify m f).get? n = if m = n then (t.get? n).map f else t.get? n := by
  cases n with
  | zero => cases m <;> simp [get?]
  | succ n =>
    cases m with
    | zero => simp [get?, modify]
    | succ m =>
      simp only [get?, modify, Array.getElem?_modify, Nat.add_right_cancel_iff]
      split
      · cases t.cells[n]? <;> rfl
      · rfl

theorem get?_erase (t : Table α) (m n : Nat) :
    (t.erase m).get? n = if m = n then none else t.get? n := by
  cases n with
  | zero => cases m <;> simp [get?]
  | succ n =>
    cases m with
    | zero => simp [get?, erase]
    | succ m =>
      simp only [get?, erase, Array.getElem?_modify, Nat.add_right_cancel_iff]
      split
      · cases t.cells[n]? <;> rfl
      · rfl

end Table

end EncodedFeed
