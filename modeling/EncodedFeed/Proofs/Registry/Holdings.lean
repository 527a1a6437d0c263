import EncodedFeed.Proofs.Session.Conservation
import EncodedFeed.Proofs.Table
import EncodedFeed.Session.Groups
import Mathlib.Data.List.Nodup

/-!
# Registries hold what is held

A source is in the registry it was made in for as long as somebody holds a handle to it.  `Registers` is the
invariant: it speaks of the sources made so far, each with its registry, and of the list of all handles there
are, one entry for each; the counts that sources keep are the counts of that list.  It is kept by each way of
making a handle and of dropping one (`Registers.addSource`, `Registers.addHandle`, `Registers.dropHandle`), and by
everything that does neither (`Tenured`).

`Holdings` are a session and the handles and groups an application holds on to.
-/

namespace EncodedFeed

/-! ### What touches no handle -/

/-- What becomes of a source depends on: the registry it was made in, its handles, and whether it is closed. -/
def Source.tenure (src : Source) : Ref .registry × Nat × Bool := (src.home, src.handles, src.closed)

/-- Nothing is registered or taken out of a registry, no source is made, and handles stay as they are. -/
structure Tenured (s t : Session) : Prop where
  registry (r : Ref .registry) : t.registry r = s.registry r
  next : t.sources.next = s.sources.next
  source (id : RoutingId) : (t.source? id).map Source.tenure = (s.source? id).map Source.tenure

namespace Tenured

variable {s t u : Session}

theorem trans (h : Tenured s t) (h' : Tenured t u) : Tenured s u :=
  ⟨fun r => (h'.registry r).trans (h.registry r), h'.next.trans h.next,
    fun id => (h'.source id).trans (h.source id)⟩

theorem of_eq (hr : t.registries = s.registries) (hs : t.sources = s.sources) : Tenured s t := by
  refine ⟨fun r => ?_, by rw [hs], fun id => ?_⟩
  · rw [Session.registry, hr]
    rfl
  · rw [Session.source?, hs]
    rfl

theorem modifySource (s : Session) (id : RoutingId) {f : Source → Source}
    (hf : ∀ src, (f src).tenure = src.tenure) : Tenured s (s.modifySource id f) := by
  refine ⟨fun _ => rfl, Table.next_modify _ _ _, fun i => ?_⟩
  rw [Session.source?_modifySource]
  split
  · rw [Option.map_map]
    exact congrArg (Option.map · _) (funext hf)
  · rfl

theorem requestKeyframe (s : Session) (id : RoutingId) : Tenured s (s.requestKeyframe id) := by
  have hmod : Tenured s (s.modifySource id Source.requestKeyframe) := modifySource s id fun _ => rfl
  unfold Session.requestKeyframe
  dsimp only
  split <;> exact hmod.trans (of_eq rfl rfl)

theorem take (s : Session) (id : RoutingId) : Tenured s (s.take id).2 := by
  unfold Session.take
  split
  · exact of_eq rfl rfl
  · have hmod : Tenured s (s.modifySource id fun src => src.take.2) := by
      apply modifySource
      intro src
      unfold Source.take
      split <;> rfl
    exact hmod.trans (of_eq rfl rfl)

theorem present (s : Session) (d : Destination) (i : EmittedImage) : Tenured s (s.present d i).2 := by
  unfold Session.present
  dsimp only
  split <;> exact of_eq rfl rfl

theorem kept : Kept Tenured where
  refl _ := of_eq rfl rfl
  trans := trans
  warn _ _ := of_eq rfl rfl
  ask := requestKeyframe
  passOn := Session.passOn_of_parts trans (fun _ _ => of_eq rfl rfl) take present
  fallback _ _ _ := of_eq rfl rfl
  encoder _ _ _ := of_eq rfl rfl

theorem carried : Carried Tenured where
  refl := kept.refl
  trans := kept.trans
  warn := kept.warn
  call := kept.call
  drop _ _ := of_eq rfl rfl
  pipeline _ _ _ _ := of_eq rfl rfl
  recorder _ _ _ := of_eq rfl rfl
  pump s id _ _ := modifySource s id fun _ => rfl

theorem push (s : Session) (id : RoutingId) (f : EncodedFrame) (now : Int64) :
    Tenured s (s.push id f now).2 := by
  unfold Session.push
  split
  · exact of_eq rfl rfl
  · split
    · exact of_eq rfl rfl
    · have hqueued : Tenured s (s.modifySource id fun src => src.enqueue f) := modifySource s id fun _ => rfl
      have hnoted := hqueued.trans (t := s.modifySource id fun src => src.enqueue f)
        (of_eq (t := (s.modifySource id fun src => src.enqueue f).note (.pushed id f)) rfl rfl)
      exact (hnoted.trans (carried.checkDepth _ id)).trans (carried.emit _ id _ now)

theorem addRegistry (s : Session) : Tenured s s.addRegistry.2 := by
  refine ⟨fun r => ?_, rfl, fun _ => rfl⟩
  simp only [Session.registry, Session.addRegistry, Table.get?_add]
  split
  · next heq =>
    rw [heq, Table.get?_next]
    rfl
  · rfl

end Tenured

/-- No source is made, nothing is registered by hand or taken out of a registry, and handles are neither taken nor
dropped. -/
def Action.sparesHandles : Action → Bool
  | addSource .. | register .. | unregister .. | addHandle _ | dropHandle _ => false
  | _ => true

theorem Session.tenured_perform (s : Session) {a : Action} (ha : a.sparesHandles = true) :
    Tenured s (s.perform a).2 := by
  have h := Tenured.carried
  cases a with
  | addRegistry => exact Tenured.addRegistry s
  | capture id tags payload now =>
    unfold perform capture
    dsimp only
    split
    · exact .of_eq rfl rfl
    · exact Tenured.push s id _ now
  | push id f now => exact Tenured.push s id f now
  | take id => exact Tenured.take s id
  | requestKeyframe id => exact Tenured.requestKeyframe s id
  | consumeKeyframeRequest id | watch id w => exact Tenured.modifySource s id fun _ => rfl
  | emit id capture now => exact h.emit s id capture now
  | pushRaw id picture t => exact h.pushRaw s id picture t
  | addTap id tap => exact h.pump s id (fun p => (p.addTap tap).2) fun _ => rfl
  | removeTap id tap => exact h.pump s id (fun p => p.removeTap tap) fun _ => rfl
  | call e c => exact h.call s e c
  | attach p id => exact h.attach s p id
  | detach p => exact h.detach s p
  | hintRate p hint => exact h.hintRate s p hint
  | addPipeline e settings o =>
    refine h.addPipeline ?_ s e settings o
    exact fun _ _ => .of_eq rfl rfl
  | dropPipeline p =>
    refine h.dropPipeline ?_ s p
    exact fun _ _ => .of_eq rfl rfl
  | addSource | register | unregister | addHandle | dropHandle => cases ha
  | _ => exact .of_eq rfl rfl

/-! ### Registries -/

/-- Of the sources made in a registry those that somebody holds. -/
def living (births : List (RoutingId × Ref .registry)) (holders : List RoutingId) (r : Ref .registry) :
    List RoutingId :=
  (births.filter fun b => b.2 = r ∧ b.1 ∈ holders).map Prod.fst

section Living

variable {births : List (RoutingId × Ref .registry)} {holders holders' : List RoutingId} {r : Ref .registry}
  {id : RoutingId}

theorem mem_living : id ∈ living births holders r ↔ (id, r) ∈ births ∧ id ∈ holders := by
  unfold living
  simp only [List.mem_map, List.mem_filter, decide_eq_true_eq]
  constructor
  · rintro ⟨⟨i, r'⟩, ⟨hb, hr, hi⟩, rfl⟩
    obtain rfl : r' = r := hr
    exact ⟨hb, hi⟩
  · rintro ⟨hb, hi⟩
    exact ⟨(id, r), ⟨hb, rfl, hi⟩, rfl⟩

theorem living_congr (h : ∀ b ∈ births, b.1 ∈ holders ↔ b.1 ∈ holders') :
    living births holders r = living births holders' r := by
  unfold living
  congr 1
  refine List.filter_congr fun b hb => ?_
  rw [decide_eq_decide, h b hb]

/-- A source that has just been made lives in the registry it was made in. -/
theorem living_cons (hnew : ∀ b ∈ births, b.1 ≠ id) (r' : Ref .registry) :
    living ((id, r) :: births) (id :: holders) r'
      = if r = r' then id :: living births holders r' else living births holders r' := by
  have hold : living births (id :: holders) r' = living births holders r' := by
    refine living_congr fun b hb => ?_
    rw [List.mem_cons]
    exact ⟨fun hin => hin.resolve_left (hnew b hb), .inr⟩
  rw [← hold]
  unfold living
  by_cases hr : r = r'
  · simp only [List.filter_cons, hr, List.mem_cons, true_or, and_self, decide_true, if_true, List.map_cons]
  · simp only [List.filter_cons, hr, false_and, decide_false, Bool.false_eq_true, if_false]

theorem lookup_diagonal (ids : List RoutingId) :
    (ids.map fun i => (i, i)).lookup id = if id ∈ ids then some id else none := by
  induction ids with
  | nil => rfl
  | cons i rest ih =>
    rw [List.map_cons, List.lookup_cons, ih]
    by_cases hi : id = i
    · subst hi
      simp
    · have hne : (id == i) = false := by simpa using hi
      simp only [hne, List.mem_cons, hi, false_or]

end Living

namespace Session

variable {s t : Session}

/-- A registry after a change; where there is none, the change must not matter. -/
theorem registry_modifyRegistry {r : Ref .registry} {f : Registry → Registry}
    (hf : (s.registries.get? r.number).isSome = true ∨ f {} = {}) (r' : Ref .registry) :
    (s.modifyRegistry r f).registry r' = if r = r' then f (s.registry r') else s.registry r' := by
  have hr : r.number = r'.number ↔ r = r' := by
    cases r; cases r'; simp
  simp only [registry, modifyRegistry, Table.get?_modify, hr]
  split
  · next heq =>
    subst heq
    cases hget : s.registries.get? r.number with
    | some x => rfl
    | none =>
      rw [hget] at hf
      rcases hf with hf | hf
      · cases hf
      · exact hf.symm
  · rfl

/-- A source whose id is free is registered under it. -/
theorem addSource_of_free {r : Ref .registry} (hfree : (s.registry r).contains ⟨s.sources.next⟩ = false)
    (c : SourceConfig) :
    (s.addSource r c).2 = Session.modifyRegistry { s with sources := s.sources.add (Source.ofConfig c r) } r
      fun x => x.insert ⟨s.sources.next⟩ ⟨s.sources.next⟩ := by
  unfold addSource register
  dsimp only
  exact congrArg Prod.snd (if_neg (Bool.eq_false_iff.mp hfree))

/-- The sources made so far are `births`, each with the registry it was made in, and `holders` has an entry for each
handle there is.  Then a source counts its handles and is closed when there is none, and a registry has just the
sources made in it that somebody holds. -/
structure Registers (s : Session) (births : List (RoutingId × Ref .registry)) (holders : List RoutingId) :
    Prop where
  distinct : (births.map Prod.fst).Nodup
  fresh : ∀ b ∈ births, b.1.number < s.sources.next
  held : ∀ id ∈ holders, ∃ r, (id, r) ∈ births
  all : ∀ id src, s.source? id = some src → ∃ r, (id, r) ∈ births
  source : ∀ b ∈ births, (s.source? b.1).map Source.tenure
    = some (b.2, holders.count b.1, decide (b.1 ∉ holders))
  entries : ∀ r, (s.registry r).entries = (living births holders r).map fun id => (id, id)

namespace Registers

variable {births : List (RoutingId × Ref .registry)} {holders holders' : List RoutingId} {id : RoutingId}

theorem find? (h : s.Registers births holders) (r : Ref .registry) (id : RoutingId) :
    (s.registry r).find? id = if (id, r) ∈ births ∧ id ∈ holders then some id else none := by
  rw [Registry.find?, h.entries r, lookup_diagonal]
  simp only [mem_living]

theorem home_unique (h : s.Registers births holders) {r r' : Ref .registry} (hr : (id, r) ∈ births)
    (hr' : (id, r') ∈ births) : r = r' :=
  congrArg Prod.snd (List.inj_on_of_nodup_map h.distinct hr hr' rfl)

theorem isClosed_iff (h : s.Registers births holders) {b : RoutingId × Ref .registry} (hb : b ∈ births) :
    s.isClosed b.1 = true ↔ b.1 ∉ holders := by
  obtain ⟨src, hs, htenure⟩ := Option.map_eq_some_iff.mp (h.source b hb)
  have hclosed : src.closed = decide (b.1 ∉ holders) := congrArg (fun x => x.2.2) htenure
  rw [isClosed, hs, Option.any_some, hclosed, decide_eq_true_eq]

/-- Handles come in no order. -/
theorem perm (h : s.Registers births holders) (hp : holders.Perm holders') : s.Registers births holders' where
  distinct := h.distinct
  fresh := h.fresh
  held i hi := h.held i (hp.mem_iff.mpr hi)
  all := h.all
  source b hb := by
    rw [h.source b hb, hp.count_eq]
    simp only [hp.mem_iff]
  entries r := by
    rw [h.entries r, living_congr fun b _ => hp.mem_iff]

theorem tenured (h : s.Registers births holders) (hst : Tenured s t) : t.Registers births holders where
  distinct := h.distinct
  fresh b hb := by
    rw [hst.next]
    exact h.fresh b hb
  held := h.held
  all i src hsrc := by
    have hbefore := hst.source i
    rw [hsrc, Option.map_some, eq_comm, Option.map_eq_some_iff] at hbefore
    obtain ⟨src', hs', -⟩ := hbefore
    exact h.all i src' hs'
  source b hb := (hst.source b.1).trans (h.source b hb)
  entries r := by
    rw [hst.registry r]
    exact h.entries r

/-! ### Handles -/

/-- One source counts its handles anew; the handles of the others are as they were. -/
theorem recount (h : s.Registers births holders) {f : Source → Source}
    (hsources : t.sources = (s.modifySource id f).sources)
    (hothers : ∀ i, id ≠ i → holders'.count i = holders.count i)
    (hself : ∀ src, s.source? id = some src →
      (f src).tenure = (src.home, holders'.count id, decide (id ∉ holders')))
    (hheld : ∀ i ∈ holders', ∃ r, (i, r) ∈ births)
    (hentries : ∀ r, (t.registry r).entries = (living births holders' r).map fun i => (i, i)) :
    t.Registers births holders' := by
  have hsource : ∀ i, t.source? i = if id = i then (s.source? i).map f else s.source? i := by
    intro i
    rw [← source?_modifySource, source?, hsources]
    rfl
  refine ⟨h.distinct, fun b hb => ?_, hheld, fun i src hsrc => ?_, fun b hb => ?_, hentries⟩
  · rw [hsources, modifySource, Table.next_modify]
    exact h.fresh b hb
  · rw [hsource] at hsrc
    split at hsrc
    · obtain ⟨src', hs', -⟩ := Option.map_eq_some_iff.mp hsrc
      exact h.all i src' hs'
    · exact h.all i src hsrc
  · obtain ⟨src, hs, htenure⟩ := Option.map_eq_some_iff.mp (h.source b hb)
    rw [hsource]
    by_cases hi : id = b.1
    · have hhome : src.home = b.2 := congrArg Prod.fst htenure
      rw [if_pos hi, hs, Option.map_some, Option.map_some, hself src (hi ▸ hs), hhome, hi]
    · have hmem : b.1 ∉ holders' ↔ b.1 ∉ holders := by
        rw [← List.count_pos_iff, ← List.count_pos_iff, hothers b.1 hi]
      rw [if_neg hi, h.source b hb, hothers b.1 hi, decide_eq_decide.mpr hmem]

/-- **Another handle** can be made of any there is. -/
theorem addHandle (h : s.Registers births holders) (hid : id ∈ holders) :
    (s.addHandle id).Registers births (id :: holders) := by
  have hmem : ∀ i, i ∈ id :: holders ↔ i ∈ holders := by
    intro i
    rw [List.mem_cons]
    exact ⟨fun hi => hi.elim (fun heq => heq ▸ hid) fun hi => hi, .inr⟩
  obtain ⟨home, hborn⟩ := h.held id hid
  refine h.recount rfl (fun i hi => List.count_cons_of_ne hi) ?_ (fun i hi => h.held i ((hmem i).mp hi)) fun r => ?_
  · intro src hs
    have htenure := h.source _ hborn
    simp only [hs, Option.map_some, Option.some.injEq, Source.tenure, Prod.mk.injEq] at htenure
    obtain ⟨-, hhandles, hclosed⟩ := htenure
    simp only [Source.tenure, hhandles, hclosed, List.count_cons_self, hmem]
  · rw [living_congr fun b _ => hmem b.1]
    exact h.entries r

/-- Without its last handle a source is missing where it was made, and it was nowhere else. -/
theorem living_of_last (h : s.Registers births (id :: holders)) (hlast : id ∉ holders) {home : Ref .registry}
    (hborn : (id, home) ∈ births) (r : Ref .registry) :
    living births holders r
      = if home = r then (living births (id :: holders) r).filter (· ≠ id)
        else living births (id :: holders) r := by
  have hrest : ∀ b ∈ births, b.1 ∈ holders ↔ b.1 ∈ id :: holders ∧ b.1 ≠ id := by
    intro b _
    rw [List.mem_cons]
    constructor
    · intro hb
      exact ⟨.inr hb, fun heq => hlast (heq ▸ hb)⟩
    · rintro ⟨hb, hne⟩
      exact hb.resolve_left hne
  have hfiltered : living births holders r = (living births (id :: holders) r).filter (· ≠ id) := by
    unfold living
    rw [List.filter_map, List.filter_filter]
    congr 1
    refine List.filter_congr fun b hb => ?_
    simp only [hrest b hb, Function.comp_apply, ← Bool.decide_and, decide_eq_decide]
    tauto
  rw [hfiltered]
  split
  · rfl
  · next hne =>
    refine List.filter_eq_self.mpr fun i hi => decide_eq_true fun heq => hne ?_
    subst heq
    exact h.home_unique hborn (mem_living.mp hi).1

/-- **A handle is dropped**, the last one or not. -/
theorem dropHandle (h : s.Registers births (id :: holders)) : (s.dropHandle id).Registers births holders := by
  obtain ⟨home, hborn⟩ := h.held id List.mem_cons_self
  obtain ⟨src, hs, htenure⟩ := Option.map_eq_some_iff.mp (h.source _ hborn)
  simp only [Source.tenure, Prod.mk.injEq, List.count_cons_self, List.mem_cons, true_or, not_true,
    decide_false] at htenure
  obtain ⟨hhome, hhandles, hopen⟩ := htenure
  have hothers : ∀ i, id ≠ i → holders.count i = (id :: holders).count i := fun i hi =>
    (List.count_cons_of_ne hi).symm
  have hheld : ∀ i ∈ holders, ∃ r, (i, r) ∈ births := fun i hi => h.held i (List.mem_cons_of_mem _ hi)
  unfold Session.dropHandle
  rw [hs]
  dsimp only
  by_cases hid : id ∈ holders
  · have hmany : src.handles > 1 := by
      have hpos := List.count_pos_iff.mpr hid
      omega
    rw [if_pos hmany]
    refine h.recount rfl hothers ?_ hheld fun r => ?_
    · intro src' hs'
      obtain rfl : src = src' := Option.some.inj (hs.symm.trans hs')
      simp only [Source.tenure, hhandles, Nat.add_sub_cancel, hopen, hid, not_true, decide_false]
    · have hmem : ∀ b ∈ births, b.1 ∈ holders ↔ b.1 ∈ id :: holders := by
        intro b _
        rw [List.mem_cons]
        exact ⟨.inr, fun hb => hb.elim (fun heq => heq ▸ hid) fun hb => hb⟩
      rw [living_congr hmem]
      exact h.entries r
  · have hnone : holders.count id = 0 := List.count_eq_zero.mpr hid
    have hlast : ¬ src.handles > 1 := by omega
    rw [if_neg hlast]
    refine h.recount rfl hothers ?_ hheld fun r => ?_
    · intro src' hs'
      simp only [Source.tenure, Source.close, hnone, hid, not_false_iff, decide_true]
    · have herased : ((s.unregister src.home id).2.modifySource id fun src => { src.close with handles := 0 }).registry r
          = if src.home = r then (s.registry r).erase id else s.registry r :=
        registry_modifyRegistry (.inr rfl) r
      rw [herased, hhome, h.living_of_last hid hborn r]
      split
      · rw [Registry.erase, h.entries r, List.filter_map]
        rfl
      · exact h.entries r

/-! ### New sources -/

/-- The next source is none of those there have been. -/
theorem next_ne (h : s.Registers births holders) {b : RoutingId × Ref .registry} (hb : b ∈ births) :
    b.1 ≠ ⟨s.sources.next⟩ := by
  intro heq
  have hlt := h.fresh b hb
  rw [heq] at hlt
  exact Nat.lt_irrefl _ hlt

theorem next_notMem (h : s.Registers births holders) : (⟨s.sources.next⟩ : RoutingId) ∉ holders := by
  intro hin
  obtain ⟨r, hb⟩ := h.held _ hin
  exact h.next_ne hb rfl

/-- **A new source** has one handle. -/
theorem addSource (h : s.Registers births holders) {r : Ref .registry}
    (hr : (s.registries.get? r.number).isSome = true) (c : SourceConfig) :
    (s.addSource r c).2.Registers (((s.addSource r c).1, r) :: births) ((s.addSource r c).1 :: holders) := by
  set id : RoutingId := (s.addSource r c).1 with hid
  have hnew : ∀ b ∈ births, b.1 ≠ id := fun b hb => h.next_ne hb
  have hunheld : id ∉ holders := h.next_notMem
  have hfree : (s.registry r).contains id = false := by
    rw [Registry.contains, h.find?, if_neg fun hb => hnew _ hb.1 rfl]
    rfl
  have hadded := addSource_of_free hfree c
  have hsource : ∀ i, (s.addSource r c).2.source? i
      = if i = id then some (Source.ofConfig c r) else s.source? i := s.source?_addSource r c
  refine ⟨?_, fun b hb => ?_, fun i hi => ?_, fun i src hsrc => ?_, fun b hb => ?_, fun r' => ?_⟩
  · rw [List.map_cons, List.nodup_cons]
    refine ⟨fun hin => ?_, h.distinct⟩
    obtain ⟨b, hb, heq⟩ := List.mem_map.mp hin
    exact hnew b hb heq
  · have hsucc : (s.addSource r c).2.sources.next = s.sources.next + 1 := by
      rw [hadded]
      exact Table.next_add _ _
    rw [hsucc]
    rcases List.mem_cons.mp hb with rfl | hb
    · exact Nat.lt_succ_self _
    · exact Nat.lt_succ_of_lt (h.fresh b hb)
  · rcases List.mem_cons.mp hi with rfl | hi
    · exact ⟨r, List.mem_cons_self⟩
    · obtain ⟨r', hb⟩ := h.held i hi
      exact ⟨r', List.mem_cons_of_mem _ hb⟩
  · rw [hsource] at hsrc
    split at hsrc
    · next heq => exact ⟨r, heq ▸ List.mem_cons_self⟩
    · obtain ⟨r', hb⟩ := h.all i src hsrc
      exact ⟨r', List.mem_cons_of_mem _ hb⟩
  · rw [hsource]
    rcases List.mem_cons.mp hb with rfl | hb
    · rw [if_pos rfl, Option.map_some, List.count_cons_self, List.count_eq_zero.mpr hunheld]
      simp [Source.tenure, Source.ofConfig]
    · have hmem : b.1 ∈ id :: holders ↔ b.1 ∈ holders := by
        rw [List.mem_cons]
        exact ⟨fun hin => hin.resolve_left (hnew b hb), .inr⟩
      rw [if_neg (hnew b hb), h.source b hb, List.count_cons_of_ne (hnew b hb).symm,
        decide_eq_decide.mpr (not_congr hmem)]
  · have hregistry : (s.addSource r c).2.registry r'
        = if r = r' then (s.registry r').insert id id else s.registry r' := by
      rw [hadded]
      exact registry_modifyRegistry (.inl hr) r'
    rw [hregistry, living_cons hnew]
    split
    · rw [Registry.insert, h.entries r', List.map_cons]
    · exact h.entries r'

theorem isSome_addSource {r : Ref .registry} (hr : (s.registries.get? r.number).isSome = true) (c : SourceConfig) :
    ((s.addSource r c).2.registries.get? r.number).isSome = true := by
  unfold Session.addSource register
  dsimp only
  split
  · exact hr
  · rw [modifyRegistry, Table.get?_modify, if_pos rfl, Option.isSome_map]
    exact hr

/-- The layers of a group are made one after the other. -/
theorem addSources (configs : List SourceConfig) {r : Ref .registry} (h : s.Registers births holders)
    (hr : (s.registries.get? r.number).isSome = true) :
    (s.addSources r configs).2.Registers ((s.addSources r configs).1.reverse.map (fun i => (i, r)) ++ births)
      ((s.addSources r configs).1 ++ holders) := by
  induction configs generalizing s births holders with
  | nil => exact h
  | cons c rest ih =>
    have hrest := ih (h.addSource hr c) (isSome_addSource hr c)
    simp only [Session.addSources, List.reverse_cons, List.map_append, List.map_cons, List.map_nil,
      List.append_assoc, List.cons_append]
    exact hrest.perm List.perm_middle

/-- The handles of a group are dropped one after the other. -/
theorem dropAll (ids : List RoutingId) (h : s.Registers births (ids ++ holders)) :
    (ids.foldl Session.dropHandle s).Registers births holders := by
  induction ids generalizing s with
  | nil => exact h
  | cons i rest ih => exact ih h.dropHandle

end Registers

end Session

/-! ### Who holds what -/

/-- A session, and what an application holds of its sources. -/
structure Holdings where
  session : Session := {}
  /-- Handles, each to a source. -/
  handles : Table RoutingId := {}
  /-- Groups, each with a handle to every layer. -/
  groups : Table Group := {}
  /-- The sources made so far, latest first, and the registry each was made in. -/
  births : List (RoutingId × Ref .registry) := []

/-- What an application does with its holdings. -/
inductive Dealing
  /-- Make a source and a handle to it. -/
  | create (registry : Ref .registry) (config : SourceConfig)
  | createGroup (registry : Ref .registry) (base : SourceConfig) (resolutions : List Resolution)
  | clone (handle : Nat)
  /-- Take a handle to a layer out of a group, which it may outlive. -/
  | cloneLayer (group layer : Nat)
  | drop (handle : Nat)
  | dropGroup (group : Nat)
  /-- Do anything else. -/
  | act (a : Action) (spares : a.sparesHandles = true)

namespace Holdings

variable (w : Holdings)

/-- The source of each handle, be it held by itself or by a group. -/
def holders : List RoutingId := w.handles.toList ++ w.groups.toList.flatMap Group.layers

/-- Number of handles to a source. -/
def held (id : RoutingId) : Nat := w.holders.count id

/-- The registry is there. -/
def hasRegistry (r : Ref .registry) : Bool := (w.session.registries.get? r.number).isSome

/-- Take another handle to a source. -/
def share (id : RoutingId) : Holdings :=
  { w with session := w.session.addHandle id, handles := w.handles.add id }

/-- The holdings after a dealing; nothing can be made in a registry that is not there, and nothing cloned or dropped
that is not held. -/
def perform : Dealing → Holdings
  | .create r c =>
    if w.hasRegistry r then
      let (id, s) := w.session.addSource r c
      { w with session := s, handles := w.handles.add id, births := (id, r) :: w.births }
    else w
  | .createGroup r base resolutions =>
    if w.hasRegistry r then
      match w.session.addGroup r base resolutions with
      | (.ok g, s) =>
        { w with
          session := s
          groups := w.groups.add g
          births := g.layers.reverse.map (fun id => (id, r)) ++ w.births }
      | (.error _, s) => { w with session := s }
    else w
  | .clone handle =>
    match w.handles.get? handle with
    | some id => w.share id
    | none => w
  | .cloneLayer group layer =>
    match (w.groups.get? group).bind fun g => g.layers[layer]? with
    | some id => w.share id
    | none => w
  | .drop handle =>
    match w.handles.get? handle with
    | some id => { w with session := w.session.dropHandle id, handles := w.handles.erase handle }
    | none => w
  | .dropGroup group =>
    match w.groups.get? group with
    | some g => { w with session := w.session.dropGroup g, groups := w.groups.erase group }
    | none => w
  | .act a _ => { w with session := (w.session.perform a).2 }

/-- The holdings after some dealings. -/
def run (dealings : List Dealing) : Holdings := dealings.foldl perform w

/-- The invariant of a session and its holders. -/
def Sound : Prop := w.session.Registers w.births w.holders

variable {w}

/-! ### Handles added and taken out -/

theorem holders_handles_add (id : RoutingId) :
    ({ w with handles := w.handles.add id } : Holdings).holders.Perm (id :: w.holders) := by
  rw [holders, Table.toList_add, List.append_assoc]
  exact List.perm_middle

theorem holders_groups_add (g : Group) :
    ({ w with groups := w.groups.add g } : Holdings).holders.Perm (g.layers ++ w.holders) := by
  rw [holders, Table.toList_add, List.flatMap_append, List.flatMap_singleton, ← List.append_assoc]
  exact List.perm_append_comm

theorem holders_handles_erase {handle : Nat} {id : RoutingId} (h : w.handles.get? handle = some id) :
    w.holders.Perm (id :: ({ w with handles := w.handles.erase handle } : Holdings).holders) :=
  (Table.perm_toList_erase h).append_right _

theorem holders_groups_erase {group : Nat} {g : Group} (h : w.groups.get? group = some g) :
    w.holders.Perm (g.layers ++ ({ w with groups := w.groups.erase group } : Holdings).holders) := by
  have hgroups := (Table.perm_toList_erase h).flatMap_right Group.layers
  rw [List.flatMap_cons] at hgroups
  refine (hgroups.append_left w.handles.toList).trans ?_
  rw [holders, ← List.append_assoc, ← List.append_assoc]
  exact List.perm_append_comm.append_right _

theorem mem_holders_of_handle {handle : Nat} {id : RoutingId} (h : w.handles.get? handle = some id) :
    id ∈ w.holders := (holders_handles_erase h).mem_iff.mpr List.mem_cons_self

theorem mem_holders_of_layer {group layer : Nat} {id : RoutingId}
    (h : ((w.groups.get? group).bind fun g => g.layers[layer]?) = some id) : id ∈ w.holders := by
  obtain ⟨g, hg, hlayer⟩ := Option.bind_eq_some_iff.mp h
  exact (holders_groups_erase hg).mem_iff.mpr (List.mem_append_left _ (List.mem_of_getElem? hlayer))

/-! ### Dealings -/

theorem sound_share (h : w.Sound) {id : RoutingId} (hid : id ∈ w.holders) : (w.share id).Sound :=
  (h.addHandle hid).perm (holders_handles_add id).symm

/-- **Each dealing keeps the invariant.** -/
theorem sound_perform (h : w.Sound) (x : Dealing) : (w.perform x).Sound := by
  cases x with
  | create r c =>
    unfold perform
    dsimp only
    split
    · next hr => exact (h.addSource hr c).perm (holders_handles_add _).symm
    · exact h
  | createGroup r base resolutions =>
    unfold perform
    dsimp only
    split
    · next hr =>
      by_cases hnone : resolutions = []
      · rw [Session.addGroup, if_pos hnone]
        exact h
      · rw [Session.addGroup, if_neg hnone]
        exact (h.addSources _ hr).perm (holders_groups_add ⟨base.codec, _⟩).symm
    · exact h
  | clone handle =>
    unfold perform
    dsimp only
    split
    · next id hget => exact sound_share h (mem_holders_of_handle hget)
    · exact h
  | cloneLayer group layer =>
    unfold perform
    dsimp only
    split
    · next id hget => exact sound_share h (mem_holders_of_layer hget)
    · exact h
  | drop handle =>
    unfold perform
    dsimp only
    split
    · next id hget => exact (h.perm (holders_handles_erase hget)).dropHandle
    · exact h
  | dropGroup group =>
    unfold perform
    dsimp only
    split
    · next g hget => exact (h.perm (holders_groups_erase hget)).dropAll g.layers
    · exact h
  | act a ha => exact h.tenured (w.session.tenured_perform ha)

theorem sound_empty : ({} : Holdings).Sound where
  distinct := List.nodup_nil
  fresh _ hb := nomatch hb
  held _ hi := nomatch hi
  all id src hs := by
    rw [Session.source?, Table.get?_empty] at hs
    cases hs
  source _ hb := nomatch hb
  entries r := by
    rw [Session.registry, Table.get?_empty]
    rfl

theorem sound_run (h : w.Sound) (dealings : List Dealing) : (w.run dealings).Sound := by
  induction dealings generalizing w with
  | nil => exact h
  | cons x rest ih => exact ih (sound_perform h x)

/-! ### Dead for good -/

/-- Sources that are held after a dealing were held before or are new. -/
theorem births_perform (w : Holdings) (x : Dealing) : ∃ new, (w.perform x).births = new ++ w.births ∧
    ∀ i ∈ (w.perform x).holders, i ∈ w.holders ∨ i ∈ new.map Prod.fst := by
  have hsame : ∀ w' : Holdings, w'.births = w.births → (∀ i ∈ w'.holders, i ∈ w.holders) →
      ∃ new, w'.births = new ++ w.births ∧ ∀ i ∈ w'.holders, i ∈ w.holders ∨ i ∈ new.map Prod.fst :=
    fun w' hb hi => ⟨[], hb, fun i hin => .inl (hi i hin)⟩
  have hshare : ∀ {id : RoutingId}, id ∈ w.holders → ∀ i ∈ (w.share id).holders, i ∈ w.holders := by
    intro id hid i hi
    rcases List.mem_cons.mp ((holders_handles_add id).mem_iff.mp hi) with rfl | hi
    · exact hid
    · exact hi
  cases x with
  | create r c =>
    unfold perform
    dsimp only
    split
    · refine ⟨[((w.session.addSource r c).1, r)], rfl, fun i hi => ?_⟩
      rcases List.mem_cons.mp ((holders_handles_add _).mem_iff.mp hi) with rfl | hi
      · exact .inr List.mem_cons_self
      · exact .inl hi
    · exact hsame w rfl fun _ hi => hi
  | createGroup r base resolutions =>
    unfold perform
    dsimp only
    split
    · by_cases hnone : resolutions = []
      · rw [Session.addGroup, if_pos hnone]
        exact hsame _ rfl fun _ hi => hi
      · rw [Session.addGroup, if_neg hnone]
        refine ⟨_, rfl, fun i hi => ?_⟩
        rcases List.mem_append.mp ((holders_groups_add _).mem_iff.mp hi) with hi | hi
        · right
          rw [List.map_map]
          exact List.mem_map.mpr ⟨i, List.mem_reverse.mpr hi, rfl⟩
        · exact .inl hi
    · exact hsame w rfl fun _ hi => hi
  | clone handle =>
    unfold perform
    dsimp only
    split
    · next id hget => exact hsame _ rfl (hshare (mem_holders_of_handle hget))
    · exact hsame w rfl fun _ hi => hi
  | cloneLayer group layer =>
    unfold perform
    dsimp only
    split
    · next id hget => exact hsame _ rfl (hshare (mem_holders_of_layer hget))
    · exact hsame w rfl fun _ hi => hi
  | drop handle =>
    unfold perform
    dsimp only
    split
    · next id hget =>
      exact hsame _ rfl fun i hi => (holders_handles_erase hget).mem_iff.mpr (List.mem_cons_of_mem _ hi)
    · exact hsame w rfl fun _ hi => hi
  | dropGroup group =>
    unfold perform
    dsimp only
    split
    · next g hget =>
      exact hsame _ rfl fun i hi => (holders_groups_erase hget).mem_iff.mpr (List.mem_append_right _ hi)
    · exact hsame w rfl fun _ hi => hi
  | act a ha => exact hsame _ rfl fun _ hi => hi

/-- **A source that nobody holds is never held again**, as new sources get ids of their own. -/
theorem dead_run (h : w.Sound) {b : RoutingId × Ref .registry} (hb : b ∈ w.births) (hdead : b.1 ∉ w.holders)
    (later : List Dealing) : b ∈ (w.run later).births ∧ b.1 ∉ (w.run later).holders := by
  induction later generalizing w with
  | nil => exact ⟨hb, hdead⟩
  | cons x rest ih =>
    have hsound := sound_perform h x
    obtain ⟨new, hbirths, hholders⟩ := w.births_perform x
    have hold : b ∈ (w.perform x).births := by
      rw [hbirths]
      exact List.mem_append_right _ hb
    have hnot : b.1 ∉ new.map Prod.fst := by
      have hdistinct := hsound.distinct
      rw [hbirths, List.map_append] at hdistinct
      intro hin
      exact (List.nodup_append.mp hdistinct).2.2 _ hin _ (List.mem_map_of_mem hb) rfl
    refine ih hsound hold fun hin => ?_
    rcases hholders _ hin with hin | hin
    · exact hdead hin
    · exact hnot hin

end Holdings

/-- **Registries hold what is held.**  Whatever an application makes, clones and drops, in whatever order, a registry
has just the sources made in it to which there still is a handle; under the id of one it finds the source itself,
which is open, and its size is their number.  A source is closed when its last handle is gone, and only then, and
its id is never found again. -/
theorem registries_hold_the_held (dealings : List Dealing) :
    let w := ({} : Holdings).run dealings
    (w.births.map Prod.fst).Nodup ∧
    (∀ r id, (w.session.registry r).contains id = true ↔ (id, r) ∈ w.births ∧ 0 < w.held id) ∧
    (∀ r id found, (w.session.registry r).find? id = some found → found = id ∧ w.session.IsLive found) ∧
    (∀ r, (w.session.registry r).size = (w.births.filter fun b => b.2 = r ∧ 0 < w.held b.1).length) ∧
    (∀ id src, w.session.source? id = some src →
      (∃ r, (id, r) ∈ w.births) ∧ (src.closed = true ↔ w.held id = 0)) ∧
    ∀ b ∈ w.births, w.held b.1 = 0 → ∀ later r, ((w.run later).session.registry r).find? b.1 = none := by
  intro w
  have hw : w.Sound := Holdings.sound_run Holdings.sound_empty dealings
  have hheld : ∀ id, 0 < w.held id ↔ id ∈ w.holders := fun id => List.count_pos_iff
  have hgone : ∀ id, w.held id = 0 ↔ id ∉ w.holders := fun id => List.count_eq_zero
  refine ⟨hw.distinct, fun r id => ?_, fun r id found hfound => ?_, fun r => ?_, fun id src hs => ?_, ?_⟩
  · rw [Registry.contains, hw.find?, hheld]
    split
    · next h => exact ⟨fun _ => h, fun _ => rfl⟩
    · next h => exact ⟨fun hno => (nomatch hno), fun hyes => absurd hyes h⟩
  · rw [hw.find?] at hfound
    split at hfound
    · next h =>
      obtain rfl : id = found := Option.some.inj hfound
      obtain ⟨src, hs, htenure⟩ := Option.map_eq_some_iff.mp (hw.source _ h.1)
      refine ⟨rfl, src, hs, ?_⟩
      have hclosed : src.closed = decide (id ∉ w.holders) := congrArg (fun x => x.2.2) htenure
      rw [hclosed]
      exact decide_eq_false (not_not.mpr h.2)
    · cases hfound
  · rw [Registry.size, hw.entries r, List.length_map, living, List.length_map]
    simp only [hheld]
  · obtain ⟨r, hb⟩ := hw.all id src hs
    have hclosed := hw.isClosed_iff hb
    rw [Session.isClosed, hs, Option.any_some] at hclosed
    exact ⟨⟨r, hb⟩, hclosed.trans (hgone id).symm⟩
  · intro b hb hdead later r
    have hlater : (w.run later).Sound := Holdings.sound_run hw later
    obtain ⟨-, hstill⟩ := Holdings.dead_run hw hb ((hgone b.1).mp hdead) later
    rw [hlater.find?]
    exact if_neg fun h => hstill h.2

/-- Two sources in one registry and a group in another; a layer outlives its group, the first source does not
outlive its two handles. -/
def layerOutlivesGroup : List Dealing :=
  [.act .addRegistry rfl, .act .addRegistry rfl, .create ⟨1⟩ {}, .clone 1, .create ⟨1⟩ {},
    .createGroup ⟨2⟩ {} [⟨320, 240⟩, ⟨640, 480⟩], .cloneLayer 1 1, .drop 2, .dropGroup 1, .drop 1]

theorem registries_hold_the_held_layerOutlivesGroup :
    let w := ({} : Holdings).run layerOutlivesGroup
    w.births = [(⟨4⟩, ⟨2⟩), (⟨3⟩, ⟨2⟩), (⟨2⟩, ⟨1⟩), (⟨1⟩, ⟨1⟩)] ∧
    (w.session.registry ⟨2⟩).contains ⟨4⟩ = true ∧ (w.session.registry ⟨2⟩).size = 1 ∧
    w.held ⟨1⟩ = 0 ∧ ∀ later r, ((w.run later).session.registry r).find? ⟨1⟩ = none := by
  intro w
  have hbirths : w.births = [(⟨4⟩, ⟨2⟩), (⟨3⟩, ⟨2⟩), (⟨2⟩, ⟨1⟩), (⟨1⟩, ⟨1⟩)] := by decide
  have hone : w.held ⟨1⟩ = 0 := by decide
  have hfour : ((⟨4⟩, ⟨2⟩) : RoutingId × Ref .registry) ∈ w.births ∧ 0 < w.held ⟨4⟩ := by decide
  obtain ⟨-, hcontains, -, hsize, -, hdead⟩ := registries_hold_the_held layerOutlivesGroup
  refine ⟨hbirths, (hcontains ⟨2⟩ ⟨4⟩).mpr hfour, ?_, hone, ?_⟩
  · exact (hsize ⟨2⟩).trans (by decide)
  · refine hdead (⟨1⟩, ⟨1⟩) ?_ hone
    decide

end EncodedFeed
