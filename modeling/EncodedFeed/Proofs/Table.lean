import EncodedFeed.Proofs.Session.Lookup

/-!
# Changing tables

Changes of one object come one after the other, changes of different objects in any order; putting an object
in its own place changes nothing; and a new object takes the place of none.
-/

namespace EncodedFeed.Table

variable {α : Type} (t : Table α)

theorem modify_modify (n : Nat) (f g : α → α) :
    (t.modify n f).modify n g = t.modify n fun x => g (f x) := by
  cases n with
  | zero => rfl
  | succ n =>
    simp only [modify, mk.injEq]
    refine Array.ext (by simp) fun i h1 h2 => ?_
    simp only [Array.getElem_modify]
    split
    · rw [Option.map_map]; rfl
    · rfl

theorem modify_comm {m n : Nat} (h : m ≠ n) (f g : α → α) :
    (t.modify m f).modify n g = (t.modify n g).modify m f := by
  cases m with
  | zero => cases n <;> rfl
  | succ m =>
    cases n with
    | zero => rfl
    | succ n =>
      simp only [modify, mk.injEq]
      refine Array.ext (by simp) fun i h1 h2 => ?_
      simp only [Array.getElem_modify]
      by_cases hm : m = i
      · have hn : n ≠ i := by omega
        simp only [if_pos hm, if_neg hn]
      · simp only [if_neg hm]

theorem modify_id (n : Nat) : t.modify n id = t := by
  cases n with
  | zero => rfl
  | succ n =>
    cases t with
    | mk cells =>
      simp only [modify, mk.injEq]
      refine Array.ext (by simp) fun i h1 h2 => ?_
      simp only [Array.getElem_modify, Option.map_id]
      split <;> rfl

/-- An object in the place of itself. -/
theorem modify_self {n : Nat} {x : α} (h : t.get? n = some x) : t.modify n (fun _ => x) = t := by
  have hid : t.modify n (fun _ => x) = t.modify n id := by
    refine modify_congr t fun y hy => ?_
    rw [h, Option.some.injEq] at hy
    exact hy
  rw [hid, modify_id]

/-- Where there is nothing, nothing changes. -/
theorem modify_of_get?_eq_none {n : Nat} (h : t.get? n = none) (f : α → α) : t.modify n f = t := by
  have hid : t.modify n f = t.modify n id := by
    refine modify_congr t fun y hy => ?_
    rw [h] at hy
    cases hy
  rw [hid, modify_id]

theorem next_modify (n : Nat) (f : α → α) : (t.modify n f).next = t.next := by
  cases n with
  | zero => rfl
  | succ n => simp [modify, next]

/-! ### Objects taken out -/

theorem next_erase (n : Nat) : (t.erase n).next = t.next := by
  cases n with
  | zero => rfl
  | succ n => simp [erase, next]

theorem erase_modify (n : Nat) (f : α → α) : (t.modify n f).erase n = t.erase n := by
  cases n with
  | zero => rfl
  | succ n =>
    simp only [modify, erase, mk.injEq]
    refine Array.ext (by simp) fun i h1 h2 => ?_
    simp only [Array.getElem_modify]
    split <;> rfl

theorem erase_modify_comm {m n : Nat} (h : m ≠ n) (f : α → α) :
    (t.modify m f).erase n = (t.erase n).modify m f := by
  cases m with
  | zero => cases n <;> rfl
  | succ m =>
    cases n with
    | zero => rfl
    | succ n =>
      simp only [modify, erase, mk.injEq]
      refine Array.ext (by simp) fun i h1 h2 => ?_
      simp only [Array.getElem_modify]
      by_cases hm : m = i
      · have hn : n ≠ i := by omega
        simp only [if_pos hm, if_neg hn]
      · simp only [if_neg hm]

/-! ### Several changes -/

/-- Several changes of one object, by what stands there in the end. -/
theorem modify_eq_of_get? {n : Nat} {x : α} (h : t.get? n = some x) (f : α → α) :
    t.modify n f = t.modify n fun _ => f x := by
  refine modify_congr t fun y hy => ?_
  rw [h, Option.some.injEq] at hy
  rw [hy]

/-! ### New objects -/

theorem next_add (x : α) : (t.add x).next = t.next + 1 := by
  simp [add, next]

theorem add_modify {n : Nat} (h : n < t.next) (x : α) (f : α → α) :
    (t.modify n f).add x = (t.add x).modify n f := by
  cases n with
  | zero => rfl
  | succ n =>
    have hn : n < t.cells.size := Nat.lt_of_succ_lt_succ h
    simp only [add, modify, mk.injEq]
    refine Array.ext (by simp) fun i h1 h2 => ?_
    simp only [Array.getElem_push, Array.getElem_modify, Array.size_modify]
    by_cases hi : i < t.cells.size
    · simp only [dif_pos hi]
    · have hne : n ≠ i := by omega
      simp only [dif_neg hi, if_neg hne]

/-- What has just been put in is changed. -/
theorem modify_add_next (x : α) (f : α → α) : (t.add x).modify t.next f = t.add (f x) := by
  show Table.mk ((t.cells.push (some x)).modify t.cells.size (·.map f)) = ⟨t.cells.push (some (f x))⟩
  rw [mk.injEq]
  refine Array.ext (by simp) fun i h1 h2 => ?_
  simp only [Array.getElem_push, Array.getElem_modify]
  by_cases hi : i < t.cells.size
  · have hne : t.cells.size ≠ i := by omega
    simp only [dif_pos hi, if_neg hne]
  · have heq : t.cells.size = i := by
      rw [Array.size_push] at h2
      omega
    simp only [dif_neg hi, if_pos heq, Option.map_some]

variable {t}

theorem ne_next {n : Nat} {x : α} (h : t.get? n = some x) : t.next ≠ n := by
  rintro rfl
  rw [get?_next] at h
  cases h

theorem lt_next {n : Nat} {x : α} (h : t.get? n = some x) : n < t.next := by
  cases n with
  | zero => cases h
  | succ n =>
    have hin : t.cells[n]? ≠ none := by
      intro hnone
      simp only [get?, hnone] at h
      cases h
    have hlt : n < t.cells.size := by simpa using hin
    show n + 1 < t.cells.size + 1
    omega

theorem get?_add_of_some {n : Nat} {x : α} (h : t.get? n = some x) (y : α) :
    (t.add y).get? n = some x := by
  rw [get?_add, if_neg (ne_next h).symm, h]

theorem get?_foldl_add_of_some {β : Type} (f : β → α) (xs : List β) {t : Table α} {n : Nat} {y : α}
    (h : t.get? n = some y) : (xs.foldl (fun t x => t.add (f x)) t).get? n = some y := by
  induction xs generalizing t with
  | nil => exact h
  | cons x rest ih => exact ih (get?_add_of_some h (f x))

/-- Objects that are added one after the other are numbered on. -/
theorem get?_foldl_add {β : Type} (f : β → α) (xs : List β) (t : Table α) (k : Nat) :
    (xs.foldl (fun t x => t.add (f x)) t).get? (t.next + k) = xs[k]?.map f := by
  induction xs generalizing t k with
  | nil =>
    cases h : t.get? (t.next + k) with
    | none => exact h
    | some y => exact absurd (lt_next h) (Nat.not_lt.mpr (Nat.le_add_right _ _))
  | cons x rest ih =>
    cases k with
    | zero =>
      have hx : (t.add (f x)).get? t.next = some (f x) := by rw [get?_add, if_pos rfl]
      exact get?_foldl_add_of_some f rest hx
    | succ k =>
      have hnext : t.next + (k + 1) = (t.add (f x)).next + k := by
        rw [next_add]
        omega
      rw [hnext]
      exact ih (t.add (f x)) k

theorem get?_empty (n : Nat) : ({} : Table α).get? n = none := by
  cases n <;> rfl

/-! ### All objects in a row -/

theorem toList_add (t : Table α) (x : α) : (t.add x).toList = t.toList ++ [x] := by
  simp [toList, add]

/-- An object that is taken out is missing afterwards, and it alone. -/
theorem perm_toList_erase {n : Nat} {x : α} (h : t.get? n = some x) :
    t.toList.Perm (x :: (t.erase n).toList) := by
  cases n with
  | zero => cases h
  | succ n =>
    have hcell : t.cells[n]? = some (some x) := Option.join_eq_some_iff.mp h
    have hcells : t.cells.toList[n]? = some (some x) := by rw [Array.getElem?_toList, hcell]
    obtain ⟨hlt, hget⟩ := List.getElem?_eq_some_iff.mp hcells
    have hsplit : t.cells.toList = t.cells.toList.take n ++ some x :: t.cells.toList.drop (n + 1) := by
      rw [← hget, List.getElem_cons_drop, List.take_append_drop]
    have herased : (t.erase (n + 1)).cells.toList
        = t.cells.toList.take n ++ none :: t.cells.toList.drop (n + 1) := by
      simp only [erase, Array.toList_modify]
      rw [List.modify_eq_take_cons_drop hlt]
    have hbefore : t.toList = (t.cells.toList.take n).filterMap id
        ++ x :: (t.cells.toList.drop (n + 1)).filterMap id := by
      refine (congrArg (List.filterMap id) hsplit).trans ?_
      rw [List.filterMap_append]
      rfl
    have hafter : (t.erase (n + 1)).toList = (t.cells.toList.take n).filterMap id
        ++ (t.cells.toList.drop (n + 1)).filterMap id := by
      rw [toList, herased, List.filterMap_append]
      rfl
    rw [hbefore, hafter]
    exact List.perm_middle

theorem toList_eq_nil (h : ∀ n, t.get? n = none) : t.toList = [] := by
  refine List.filterMap_eq_nil_iff.mpr fun x hx => ?_
  obtain ⟨n, hn, rfl⟩ := List.getElem_of_mem hx
  have hcell : t.cells[n]? = some (t.cells.toList[n]) := by
    rw [← Array.getElem?_toList]
    exact List.getElem?_eq_getElem hn
  have hget := h (n + 1)
  rwa [get?, hcell] at hget

/-! ### All objects at once -/

/-- Change every object. -/
def map {β : Type} (g : α → β) (t : Table α) : Table β := ⟨t.cells.map (·.map g)⟩

variable {β : Type} (g : α → β)

theorem next_map (t : Table α) : (t.map g).next = t.next := by
  simp [map, next]

theorem get?_map (t : Table α) (n : Nat) : (t.map g).get? n = (t.get? n).map g := by
  cases n with
  | zero => rfl
  | succ n =>
    simp only [get?, map, Array.getElem?_map]
    cases t.cells[n]? <;> rfl

theorem map_add (t : Table α) (x : α) : (t.add x).map g = (t.map g).add (g x) := by
  simp only [map, add, Array.map_push, Option.map_some]

theorem map_erase (t : Table α) (n : Nat) : (t.erase n).map g = (t.map g).erase n := by
  cases n with
  | zero => rfl
  | succ n =>
    simp only [map, erase, mk.injEq]
    refine Array.ext (by simp) fun i h1 h2 => ?_
    simp only [Array.getElem_map, Array.getElem_modify]
    split <;> rfl

/-- A change of one object, before or after all of them are changed. -/
theorem map_modify (t : Table α) (n : Nat) {f : α → α} {f' : β → β} (h : ∀ x, g (f x) = f' (g x)) :
    (t.modify n f).map g = (t.map g).modify n f' := by
  cases n with
  | zero => rfl
  | succ n =>
    simp only [map, modify, mk.injEq]
    refine Array.ext (by simp) fun i h1 h2 => ?_
    simp only [Array.getElem_map, Array.getElem_modify]
    split
    · simp only [Option.map_map, Function.comp_def, h]
    · rfl

/-- A change of one object that cannot be seen afterwards. -/
theorem map_modify_of_eq (t : Table α) (n : Nat) {f : α → α} (h : ∀ x, g (f x) = g x) :
    (t.modify n f).map g = t.map g := by
  have hid : ∀ x, g (f x) = id (g x) := h
  rw [t.map_modify g n hid, modify_id]

end EncodedFeed.Table
