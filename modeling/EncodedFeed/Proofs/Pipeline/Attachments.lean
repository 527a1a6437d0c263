import EncodedFeed.Proofs.Pipeline.Ports
import EncodedFeed.Proofs.Session.Conservation
import Mathlib.Data.List.Basic

/-!
# Attachments in force

An attachment is in force from the attaching on until the pipeline is detached or let go of, or its tap is
removed by name.  `inForce` reads this off the steps of a run, with no regard to pumps and pipelines;
`Session.Reflects` says that the pumps and the lists of the pipelines agree with it.  Names of taps are
given by each pump on its own, so that two sources use the same ones, and a pipeline still lists taps that were
removed by name: a name is never given twice, so they do no harm.

An application attaches pipelines to sources that are there, and adds no taps in the name of a pipeline
(`Step.isSound`).
-/

namespace EncodedFeed

/-- A pipeline that is attached to a source, and the name of its tap there. -/
structure Attachment where
  pipeline : Ref .pipeline
  source : RoutingId
  tap : TapId
deriving DecidableEq, Repr

/-- The pipeline a tap is. -/
def Tap.pipeline? : Tap → Option (Ref .pipeline)
  | pipeline p => some p
  | recorder _ => none

/-- The action ends the attachment. -/
def Action.ends (a : Action) (h : Attachment) : Bool :=
  match a with
  | detach p | dropPipeline p => p = h.pipeline
  | removeTap id tap => id = h.source && tap = h.tap
  | _ => false

/-- The source that is to hand out a raw frame; an empty payload is refused. -/
def Action.pushedTo? : Action → Option RoutingId
  | capture id _ payload _ => if payload = [] then none else some id
  | push id _ _ | emit id _ _ | pushRaw id _ _ => some id
  | _ => none

namespace Step

/-- The attachment that is made in the step. -/
def attachment? (x : Step) : Option Attachment :=
  match x.action, x.reply with
  | .attach p id, .made tap => some ⟨p, id, tap⟩
  | _, _ => none

/-- What is attached is there, and taps that are added by hand are no pipelines. -/
def isSound (x : Step) : Bool :=
  match x.action with
  | .attach p id => (x.before.pipeline? p).isSome && (x.before.source? id).isSome
  | .addTap _ tap => tap.pipeline?.isNone
  | _ => true

/-- The pipelines that raw frames reach in the step, one after the other. -/
def fed (x : Step) : List (Ref .pipeline) := (x.before.play (x.before.beats x.action)).filterMap Moment.fed?

end Step

/-- The attachments that are in force after some steps, in the order of attaching: those that no later step
ends. -/
def inForce : List Step → List Attachment
  | [] => []
  | x :: rest => (x.attachment?.filter fun h => rest.all fun y => !y.action.ends h).toList ++ inForce rest

theorem inForce_snoc (xs : List Step) (x : Step) :
    inForce (xs ++ [x]) = (inForce xs).filter (fun h => !x.action.ends h) ++ x.attachment?.toList := by
  induction xs with
  | nil =>
    cases h : x.attachment? with
    | none => simp [inForce, h]
    | some h' => simp [inForce, h, Option.filter]
  | cons y rest ih =>
    rw [List.cons_append, inForce, inForce, ih, List.filter_append, List.append_assoc]
    congr 1
    cases y.attachment? with
    | none => rfl
    | some h =>
      by_cases hrest : (rest.all fun z => !z.action.ends h) = true
      · by_cases hx : x.action.ends h = true <;> simp [Option.filter, hrest, hx]
      · simp [Option.filter, hrest]

/-- What it takes to be in force. -/
theorem mem_inForce {xs : List Step} {h : Attachment} (hin : h ∈ inForce xs) :
    ∃ earlier x later, xs = earlier ++ x :: later ∧ x.attachment? = some h ∧
      ∀ y ∈ later, y.action.ends h = false := by
  induction xs with
  | nil => cases hin
  | cons x rest ih =>
    rcases List.mem_append.mp hin with hx | hrest
    · obtain ⟨hmade, hstays⟩ := Option.filter_eq_some_iff.mp (Option.mem_toList.mp hx)
      refine ⟨[], x, rest, rfl, hmade, fun y hy => ?_⟩
      simpa using List.all_eq_true.mp hstays y hy
    · obtain ⟨earlier, y, later, rfl, hmade, hstays⟩ := ih hrest
      exact ⟨x :: earlier, y, later, rfl, hmade, hstays⟩

theorem pipeline_of_attachment? {x : Step} {h : Attachment} (hx : x.attachment? = some h) :
    x.action = .attach h.pipeline h.source := by
  unfold Step.attachment? at hx
  split at hx
  · next p id tap ha _ =>
    cases hx
    exact ha
  · cases hx

/-- Once a pipeline is detached or let go of, none of its attachments is in force until it is attached again. -/
theorem not_mem_inForce {earlier later : List Step} {y : Step} {p : Ref .pipeline}
    (hy : y.action = .detach p ∨ y.action = .dropPipeline p)
    (hlater : ∀ z ∈ later, ∀ id, z.action ≠ .attach p id) :
    ∀ h ∈ inForce (earlier ++ y :: later), h.pipeline ≠ p := by
  rintro h hin rfl
  obtain ⟨before, x, after, hsplit, hmade, hstays⟩ := mem_inForce hin
  have hattach := pipeline_of_attachment? hmade
  have hends : y.action.ends h = true := by
    rcases hy with hy | hy <;> rw [hy] <;> simp [Action.ends]
  -- the attaching comes before the detaching, at it, or after it
  rcases List.append_eq_append_iff.mp hsplit with ⟨mid, -, hmid⟩ | ⟨mid, -, hmid⟩
  · cases mid with
    | nil =>
      obtain ⟨rfl, -⟩ := List.cons.inj hmid
      rcases hy with hy | hy <;> rw [hattach] at hy <;> cases hy
    | cons z rest =>
      obtain ⟨-, rfl⟩ := List.cons.inj hmid
      exact hlater x (List.mem_append_right _ List.mem_cons_self) h.source hattach
  · cases mid with
    | nil =>
      obtain ⟨rfl, -⟩ := List.cons.inj hmid
      rcases hy with hy | hy <;> rw [hattach] at hy <;> cases hy
    | cons z rest =>
      obtain ⟨-, rfl⟩ := List.cons.inj hmid
      rw [hstays y (List.mem_append_right _ List.mem_cons_self)] at hends
      cases hends

/-- Attachments to a source, as the source knows them. -/
def attachedTo (hs : List Attachment) (id : RoutingId) : List (TapId × Ref .pipeline) :=
  (hs.filter fun h => h.source = id).map fun h => (h.tap, h.pipeline)

theorem mem_attachedTo {hs : List Attachment} {id : RoutingId} {tap : TapId} {p : Ref .pipeline} :
    (tap, p) ∈ attachedTo hs id ↔ ⟨p, id, tap⟩ ∈ hs := by
  unfold attachedTo
  constructor
  · intro h
    obtain ⟨⟨p', id', tap'⟩, hin, heq⟩ := List.mem_map.mp h
    obtain ⟨hin, hid⟩ := List.mem_filter.mp hin
    cases heq
    have hid' : id' = id := of_decide_eq_true hid
    rwa [hid'] at hin
  · intro h
    exact List.mem_map.mpr ⟨_, List.mem_filter.mpr ⟨h, by simp⟩, rfl⟩

theorem attachedTo_append (hs hs' : List Attachment) (id : RoutingId) :
    attachedTo (hs ++ hs') id = attachedTo hs id ++ attachedTo hs' id := by
  simp [attachedTo]

/-- Attachments that end, as the source knows them. -/
theorem attachedTo_filter {hs : List Attachment} {id : RoutingId} {f : Attachment → Bool}
    {g : TapId × Ref .pipeline → Bool} (h : ∀ a ∈ hs, a.source = id → f a = g (a.tap, a.pipeline)) :
    attachedTo (hs.filter f) id = (attachedTo hs id).filter g := by
  unfold attachedTo
  rw [List.filter_map, List.filter_filter, List.filter_filter]
  refine congrArg _ (List.filter_congr fun a ha => ?_)
  by_cases hid : a.source = id
  · simp [hid, h a ha hid]
  · simp [hid]

namespace Port

/-- The pipelines among the taps. -/
def attached (x : Port) : List (TapId × Ref .pipeline) := x.taps.filterMap fun t => t.2.pipeline?.map (t.1, ·)

theorem mem_attached {x : Port} {tap : TapId} {p : Ref .pipeline} :
    (tap, p) ∈ x.attached ↔ (tap, .pipeline p) ∈ x.taps := by
  unfold attached
  constructor
  · intro h
    obtain ⟨⟨tap', t⟩, hin, heq⟩ := List.mem_filterMap.mp h
    obtain ⟨p', hp, heq⟩ := Option.map_eq_some_iff.mp heq
    cases heq
    cases t with
    | pipeline p =>
      cases hp
      exact hin
    | recorder r => cases hp
  · intro h
    exact List.mem_filterMap.mpr ⟨_, h, rfl⟩

theorem attached_add (x : Port) (tap : Tap) :
    (x.add tap).attached = x.attached ++ (tap.pipeline?.map (x.next, ·)).toList := by
  unfold attached add
  rw [List.filterMap_append]
  cases tap <;> rfl

theorem attached_keep (x : Port) {f : TapId × Tap → Bool} {g : TapId × Ref .pipeline → Bool}
    (h : ∀ tap p, (tap, p) ∈ x.attached → f (tap, .pipeline p) = g (tap, p)) :
    (x.keep f).attached = x.attached.filter g := by
  unfold attached keep at *
  rw [List.filterMap_filter, List.filter_filterMap]
  refine List.filterMap_congr fun t ht => ?_
  obtain ⟨tap, t⟩ := t
  cases t with
  | pipeline p =>
    have hin : (tap, p) ∈ x.taps.filterMap fun t => t.2.pipeline?.map (t.1, ·) :=
      List.mem_filterMap.mpr ⟨_, ht, rfl⟩
    rw [h tap p hin]
    rfl
  | recorder r => simp [Tap.pipeline?]

end Port

/-! ### Pumps, lists and what is in force -/

namespace Session

variable {s t : Session} {hs hs' : List Attachment}

/-- Pumps and pipelines know of the attachments in force.  What else a pipeline lists is the name of a tap that
nobody else has. -/
structure Reflects (s : Session) (hs : List Attachment) : Prop where
  taps (id : RoutingId) (x : Port) : s.port? id = some x → x.closed = false → x.attached = attachedTo hs id
  ended (id : RoutingId) (x : Port) : s.port? id = some x → x.ended = x.closed
  fresh (id : RoutingId) (x : Port) : s.port? id = some x → ∀ t ∈ x.taps, t.1 < x.next
  source (h : Attachment) : h ∈ hs → s.port? h.source ≠ none
  listed (h : Attachment) : h ∈ hs → ∃ as, s.attachments? h.pipeline = some as ∧ (h.source, h.tap) ∈ as
  own (p : Ref .pipeline) (as : List (RoutingId × TapId)) : s.attachments? p = some as → ∀ a ∈ as,
    ∃ x, s.port? a.1 = some x ∧ a.2 < x.next ∧ ∀ tap, (a.2, tap) ∈ x.taps → tap = .pipeline p

namespace Reflects

theorem empty : ({} : Session).Reflects [] := by
  have hport : ∀ id, ({} : Session).port? id = none := by
    intro id
    rw [port?, source?, Table.get?_empty, Option.map_none]
  have hattachments : ∀ p, ({} : Session).attachments? p = none := by
    intro p
    rw [attachments?, pipeline?, Table.get?_empty, Option.map_none]
  refine ⟨fun id x hx => ?_, fun id x hx => ?_, fun id x hx => ?_, fun h hin => ?_, fun h hin => ?_,
    fun p as has => ?_⟩
  · rw [hport] at hx
    cases hx
  · rw [hport] at hx
    cases hx
  · rw [hport] at hx
    cases hx
  · cases hin
  · cases hin
  · rw [hattachments] at has
    cases has

/-- Where nothing is attached, fewer taps, fewer listed and fewer in force are as good. -/
theorem shrink (h : s.Reflects hs) {F : RoutingId → Port → Port}
    (hport : ∀ id, t.port? id = (s.port? id).map (F id))
    (hF : ∀ id x, (F id x).next = x.next ∧ ∀ t ∈ (F id x).taps, t ∈ x.taps)
    (hended : ∀ id x, x.ended = x.closed → (F id x).ended = (F id x).closed)
    (hold : ∀ p as', t.attachments? p = some as' → ∀ a ∈ as', ∃ as, s.attachments? p = some as ∧ a ∈ as)
    (hlisted : ∀ a ∈ hs', a ∈ hs ∧ ∃ as, t.attachments? a.pipeline = some as ∧ (a.source, a.tap) ∈ as)
    (htaps : ∀ id x, s.port? id = some x → (F id x).closed = false → (F id x).attached = attachedTo hs' id) :
    t.Reflects hs' := by
  have hback : ∀ id y, t.port? id = some y → ∃ x, s.port? id = some x ∧ F id x = y := by
    intro id y hy
    rw [hport] at hy
    exact Option.map_eq_some_iff.mp hy
  refine ⟨fun id y hy hopen => ?_, fun id y hy => ?_, fun id y hy tap htap => ?_, fun a ha => ?_,
    fun a ha => (hlisted a ha).2, fun p as' has' a ha => ?_⟩
  · obtain ⟨x, hx, rfl⟩ := hback id y hy
    exact htaps id x hx hopen
  · obtain ⟨x, hx, rfl⟩ := hback id y hy
    exact hended id x (h.ended id x hx)
  · obtain ⟨x, hx, rfl⟩ := hback id y hy
    rw [(hF id x).1]
    exact h.fresh id x hx tap ((hF id x).2 tap htap)
  · intro hnone
    rw [hport, Option.map_eq_none_iff] at hnone
    exact h.source a (hlisted a ha).1 hnone
  · obtain ⟨as, has, hin⟩ := hold p as' has' a ha
    obtain ⟨x, hx, hlt, hsole⟩ := h.own p as has a hin
    refine ⟨F a.1 x, by rw [hport, hx, Option.map_some], ?_, fun tap htap => ?_⟩
    · rw [(hF a.1 x).1]
      exact hlt
    · exact hsole tap ((hF a.1 x).2 _ htap)

theorem of_eq (h : s.Reflects hs) (hport : ∀ id, t.port? id = s.port? id)
    (hattachments : ∀ p, t.attachments? p = s.attachments? p) : t.Reflects hs := by
  refine h.shrink (F := fun _ x => x) (fun id => ?_) (fun _ _ => ⟨rfl, fun _ ht => ht⟩) (fun _ _ hx => hx)
    (fun p as has a ha => ⟨as, ?_, ha⟩) (fun a ha => ⟨ha, ?_⟩) h.taps
  · rw [hport]
    exact Option.map_id'.symm
  · rw [← hattachments]
    exact has
  · rw [hattachments]
    exact h.listed a ha

theorem untouched (h : s.Reflects hs) (hsame : Untouched Pipeline.attachments s t) : t.Reflects hs :=
  h.of_eq hsame.port hsame.pipeline

theorem addSource (h : s.Reflects hs) (r : Ref .registry) (c : SourceConfig) : (s.addSource r c).2.Reflects hs := by
  have hnew := s.port?_addSource_fst r c
  have hport := s.port?_addSource r c
  have hattachments : ∀ p, (s.addSource r c).2.attachments? p = s.attachments? p := by
    intro p
    have hpipelines : (s.addSource r c).2.pipelines = s.pipelines :=
      (s.tables_of_quiet (a := .addSource r c) rfl).1
    rw [attachments?, pipeline?, hpipelines]
    rfl
  have hback : ∀ id y, (s.addSource r c).2.port? id = some y →
      id = (s.addSource r c).1 ∧ y = (Source.ofConfig c r).port ∨ s.port? id = some y := by
    intro id y hy
    rw [hport] at hy
    split at hy
    · next hid => exact .inl ⟨hid, (Option.some.inj hy).symm⟩
    · exact .inr hy
  have hthere : ∀ id, s.port? id ≠ none → (s.addSource r c).2.port? id = s.port? id := by
    intro id hid
    rw [hport, if_neg]
    rintro rfl
    exact hid hnew
  refine ⟨fun id y hy hopen => ?_, fun id y hy => ?_, fun id y hy => ?_, fun a ha => ?_, fun a ha => ?_,
    fun p as has a ha => ?_⟩
  · rcases hback id y hy with ⟨rfl, rfl⟩ | hy
    · have hnone : attachedTo hs (s.addSource r c).1 = [] := by
        refine List.eq_nil_iff_forall_not_mem.mpr fun a ha => ?_
        exact h.source _ (mem_attachedTo.mp ha) hnew
      rw [hnone]
      rfl
    · exact h.taps id y hy hopen
  · rcases hback id y hy with ⟨-, rfl⟩ | hy
    · rfl
    · exact h.ended id y hy
  · rcases hback id y hy with ⟨-, rfl⟩ | hy
    · intro tap htap
      cases htap
    · exact h.fresh id y hy
  · rw [hthere a.source (h.source a ha)]
    exact h.source a ha
  · rw [hattachments]
    exact h.listed a ha
  · rw [hattachments] at has
    obtain ⟨x, hx, hrest⟩ := h.own p as has a ha
    refine ⟨x, ?_, hrest⟩
    rw [hthere a.1 (by rw [hx]; exact Option.some_ne_none x), hx]

theorem dropHandle (h : s.Reflects hs) (i : RoutingId) : (s.dropHandle i).Reflects hs := by
  obtain ⟨hpipelines, hport⟩ := s.dropHandle_ports i
  have hattachments : ∀ p, (s.dropHandle i).attachments? p = s.attachments? p := by
    intro p
    rw [attachments?, pipeline?, hpipelines]
    rfl
  rcases hport with hport | hport
  · exact h.of_eq hport hattachments
  · refine h.shrink (F := fun id x => if i = id then x.close else x) (fun id => ?_) (fun id x => ?_) (fun id x hx => ?_)
      (fun p as has a ha => ⟨as, ?_, ha⟩) (fun a ha => ⟨ha, ?_⟩) (fun id x hx hopen => ?_)
    · rw [hport]
      split
      · rfl
      · exact Option.map_id'.symm
    · split
      · refine ⟨rfl, fun tap htap => ?_⟩
        cases htap
      · exact ⟨rfl, fun _ htap => htap⟩
    · split
      · rfl
      · exact hx
    · rw [← hattachments]
      exact has
    · rw [hattachments]
      exact h.listed a ha
    · split at hopen
      · cases hopen
      · next hne =>
        rw [if_neg hne]
        exact h.taps id x hx hopen

theorem removeTap (h : s.Reflects hs) (i : RoutingId) (tap : TapId) :
    (s.removeTap i tap).2.Reflects (hs.filter fun a => !(i = a.source && tap = a.tap)) := by
  refine h.shrink (F := fun id x => if i = id then x.keep fun t => t.1 != tap else x) (fun id => ?_) (fun id x => ?_)
    (fun id x hx => ?_) (fun p as has a ha => ⟨as, has, ha⟩) (fun a ha => ?_) (fun id x hx hopen => ?_)
  · rw [port?_removeTap]
    split
    · rfl
    · exact Option.map_id'.symm
  · split
    · exact ⟨rfl, fun _ htap => (List.mem_filter.mp htap).1⟩
    · exact ⟨rfl, fun _ htap => htap⟩
  · split <;> exact hx
  · have hin := (List.mem_filter.mp ha).1
    exact ⟨hin, h.listed a hin⟩
  · by_cases hi : i = id
    · subst hi
      rw [if_pos rfl] at hopen ⊢
      rw [x.attached_keep (g := fun a => a.1 != tap) fun _ _ _ => rfl, h.taps i x hx hopen]
      refine (attachedTo_filter fun a _ ha => ?_).symm
      have htap : (tap = a.tap) = (a.tap = tap) := propext eq_comm
      simp only [ha, htap, decide_true, Bool.true_and]
      rfl
    · rw [if_neg hi] at hopen ⊢
      rw [h.taps id x hx hopen]
      rw [attachedTo_filter (g := fun _ => true) fun a _ ha => ?_]
      · simp
      · simp [ha, hi]

/-- A tap that is added is behind the others; if it is a pipeline, this lists it. -/
theorem grow (h : s.Reflects hs) {i : RoutingId} {x : Port} (tap : Tap) (hx : s.port? i = some x)
    (hport : ∀ id, t.port? id = if i = id then (s.port? id).map fun x => x.add tap else s.port? id)
    (hold : ∀ p as', t.attachments? p = some as' → ∀ a ∈ as',
      (∃ as, s.attachments? p = some as ∧ a ∈ as) ∨ a = (i, x.next) ∧ tap = .pipeline p)
    (hlisted : ∀ a ∈ hs ++ (tap.pipeline?.map fun p => Attachment.mk p i x.next).toList,
      ∃ as, t.attachments? a.pipeline = some as ∧ (a.source, a.tap) ∈ as) :
    t.Reflects (hs ++ (tap.pipeline?.map fun p => Attachment.mk p i x.next).toList) := by
  have hi : t.port? i = some (x.add tap) := by rw [hport, if_pos rfl, hx, Option.map_some]
  have hne : ∀ id, i ≠ id → t.port? id = s.port? id := fun id hid => by rw [hport, if_neg hid]
  have hback : ∀ id y, t.port? id = some y → i = id ∧ x.add tap = y ∨ i ≠ id ∧ s.port? id = some y := by
    intro id y hy
    by_cases hid : i = id
    · subst hid
      exact .inl ⟨rfl, Option.some.inj (hi.symm.trans hy)⟩
    · exact .inr ⟨hid, (hne id hid).symm.trans hy⟩
  have hsource : ∀ a ∈ (tap.pipeline?.map fun p => Attachment.mk p i x.next).toList, a.source = i := by
    intro a ha
    obtain ⟨p, -, rfl⟩ := Option.map_eq_some_iff.mp (Option.mem_toList.mp ha)
    rfl
  refine ⟨fun id y hy hopen => ?_, fun id y hy => ?_, fun id y hy a ha => ?_, fun a ha => ?_, hlisted,
    fun p as' has' a ha => ?_⟩
  · rw [attachedTo_append]
    rcases hback id y hy with ⟨rfl, rfl⟩ | ⟨hid, hy⟩
    · rw [x.attached_add, h.taps i x hx hopen]
      congr 1
      cases tap with
      | recorder r => rfl
      | pipeline p => simp [attachedTo, Tap.pipeline?]
    · have hnone : attachedTo (tap.pipeline?.map fun p => Attachment.mk p i x.next).toList id = [] := by
        refine List.map_eq_nil_iff.mpr (List.filter_eq_nil_iff.mpr fun a ha => ?_)
        simp [hsource a ha, hid]
      rw [hnone, List.append_nil, h.taps id y hy hopen]
  · rcases hback id y hy with ⟨rfl, rfl⟩ | ⟨-, hy⟩
    · exact h.ended i x hx
    · exact h.ended id y hy
  · rcases hback id y hy with ⟨rfl, rfl⟩ | ⟨-, hy⟩
    · rcases List.mem_append.mp ha with ha | ha
      · exact Nat.lt_succ_of_lt (h.fresh i x hx a ha)
      · rw [List.mem_singleton.mp ha]
        exact Nat.lt_succ_self _
    · exact h.fresh id y hy a ha
  · by_cases hid : i = a.source
    · rw [← hid, hi]
      exact Option.some_ne_none _
    · rw [hne _ hid]
      rcases List.mem_append.mp ha with ha | ha
      · exact h.source a ha
      · exact absurd (hsource a ha).symm hid
  · rcases hold p as' has' a ha with ⟨as, has, hin⟩ | ⟨rfl, rfl⟩
    · obtain ⟨y, hy, hlt, hsole⟩ := h.own p as has a hin
      by_cases hid : i = a.1
      · obtain rfl : x = y := by
          rw [← hid, hx] at hy
          exact Option.some.inj hy
        refine ⟨x.add tap, by rw [← hid, hi], Nat.lt_succ_of_lt hlt, fun tap' htap => ?_⟩
        rcases List.mem_append.mp htap with htap | htap
        · exact hsole tap' htap
        · -- the new name is greater than any that is listed
          have heq : a.2 = x.next := congrArg Prod.fst (List.mem_singleton.mp htap)
          rw [heq] at hlt
          exact absurd hlt (Nat.lt_irrefl _)
      · exact ⟨y, (hne _ hid).trans hy, hlt, hsole⟩
    · refine ⟨x.add (.pipeline p), hi, Nat.lt_succ_self _, fun tap' htap => ?_⟩
      rcases List.mem_append.mp htap with htap | htap
      · exact absurd (h.fresh i x hx _ htap) (Nat.lt_irrefl _)
      · exact congrArg Prod.snd (List.mem_singleton.mp htap)

/-- A tap that is no pipeline. -/
theorem addTap (h : s.Reflects hs) (i : RoutingId) {tap : Tap} (htap : tap.pipeline? = none) :
    (s.addTap i tap).2.Reflects hs := by
  have hport := s.port?_addTap i tap
  cases hx : s.port? i with
  | none =>
    refine h.of_eq (fun id => ?_) fun _ => rfl
    rw [hport]
    split
    · next hid => rw [← hid, hx, Option.map_none]
    · rfl
  | some x =>
    have hgrown := h.grow (t := (s.addTap i tap).2) tap hx hport (fun p as has a ha => .inl ⟨as, has, ha⟩)
      fun a ha => by
        rw [htap, Option.map_none, Option.toList_none, List.append_nil] at ha
        exact h.listed a ha
    rwa [htap, Option.map_none, Option.toList_none, List.append_nil] at hgrown

theorem attach (h : s.Reflects hs) {p : Ref .pipeline} {i : RoutingId} (hp : (s.pipeline? p).isSome = true)
    (hi : (s.source? i).isSome = true) : (s.attach p i).2.Reflects (hs ++ [⟨p, i, (s.attach p i).1⟩]) := by
  obtain ⟨hname, hport, hattachments⟩ := s.attach_ports p i
  obtain ⟨src, hsrc⟩ := Option.isSome_iff_exists.mp hi
  obtain ⟨q, hq⟩ := Option.isSome_iff_exists.mp hp
  have hx : s.port? i = some src.port := by rw [port?, hsrc, Option.map_some]
  have has : s.attachments? p = some q.attachments := by rw [attachments?, hq, Option.map_some]
  rw [hx, Option.map_some, Option.getD_some] at hname
  rw [hname] at hattachments ⊢
  refine h.grow (.pipeline p) hx hport (fun p' as' has' a ha => ?_) fun a ha => ?_
  · rw [hattachments] at has'
    split at has'
    · next heq =>
      subst heq
      rw [has] at has'
      cases has'
      rcases List.mem_append.mp ha with ha | ha
      · exact .inl ⟨_, has, ha⟩
      · exact .inr ⟨List.mem_singleton.mp ha, rfl⟩
    · exact .inl ⟨as', has', ha⟩
  · rw [hattachments]
    rcases List.mem_append.mp ha with ha | ha
    · obtain ⟨as', has', hin⟩ := h.listed a ha
      split
      · exact ⟨as' ++ [(i, src.port.next)], by rw [has', Option.map_some], List.mem_append_left _ hin⟩
      · exact ⟨as', has', hin⟩
    · rcases List.mem_singleton.mp ha with rfl
      exact ⟨q.attachments ++ [(i, src.port.next)], by rw [if_pos rfl, has, Option.map_some],
        List.mem_append_right _ (List.mem_singleton.mpr rfl)⟩

/-- At a source that is open a pipeline lists its own taps, and no others. -/
theorem mem_listed_iff (h : s.Reflects hs) {p : Ref .pipeline} {as : List (RoutingId × TapId)}
    (has : s.attachments? p = some as) {id : RoutingId} {x : Port} (hx : s.port? id = some x)
    (hopen : x.closed = false) {t : TapId × Tap} (ht : t ∈ x.taps) : (id, t.1) ∈ as ↔ t.2 = .pipeline p := by
  constructor
  · intro hin
    obtain ⟨y, hy, -, hsole⟩ := h.own p as has _ hin
    obtain rfl : x = y := Option.some.inj (hx.symm.trans hy)
    exact hsole t.2 ht
  · intro heq
    have hin : (t.1, p) ∈ x.attached := Port.mem_attached.mpr (by rw [← heq]; exact ht)
    rw [h.taps id x hx hopen] at hin
    obtain ⟨as', has', hlisted⟩ := h.listed _ (mem_attachedTo.mp hin)
    obtain rfl : as' = as := Option.some.inj (has'.symm.trans has)
    exact hlisted

/-- Detaching removes the taps of the pipeline, whatever else is done to its list. -/
theorem detached (h : s.Reflects hs) {p : Ref .pipeline} {as : List (RoutingId × TapId)}
    (has : s.attachments? p = some as)
    (hport : ∀ id, t.port? id = (s.port? id).map fun x => x.keep fun t => (id, t.1) ∉ as)
    (hothers : ∀ p', p ≠ p' → t.attachments? p' = s.attachments? p')
    (hself : ∀ as', t.attachments? p = some as' → as' = []) :
    t.Reflects (hs.filter fun a => !decide (p = a.pipeline)) := by
  refine h.shrink hport (fun id x => ⟨rfl, fun _ ht => (List.mem_filter.mp ht).1⟩) (fun _ _ hx => hx)
    (fun p' as' has' a ha => ?_) (fun a ha => ?_) (fun id x hx hopen => ?_)
  · by_cases hne : p = p'
    · subst hne
      rw [hself as' has'] at ha
      cases ha
    · rw [hothers p' hne] at has'
      exact ⟨as', has', ha⟩
  · obtain ⟨hin, hne⟩ := List.mem_filter.mp ha
    refine ⟨hin, ?_⟩
    rw [hothers a.pipeline (by simpa using hne)]
    exact h.listed a hin
  · have hkeep := x.attached_keep (f := fun t => (id, t.1) ∉ as) (g := fun a => !decide (p = a.2))
      fun tap p' hin => by
        have hiff := h.mem_listed_iff has hx hopen (Port.mem_attached.mp hin)
        rw [Bool.eq_iff_iff]
        simp only [decide_eq_true_eq, Bool.not_eq_eq_eq_not, Bool.not_true, decide_eq_false_iff_not, hiff,
          Tap.pipeline.injEq]
        exact not_congr eq_comm
    rw [hkeep, h.taps id x hx hopen]
    exact (attachedTo_filter fun _ _ _ => rfl).symm

theorem detach (h : s.Reflects hs) (p : Ref .pipeline) :
    (s.detach p).Reflects (hs.filter fun a => !decide (p = a.pipeline)) := by
  cases has : s.attachments? p with
  | none =>
    have hstay : (hs.filter fun a => !decide (p = a.pipeline)) = hs := by
      refine List.filter_eq_self.mpr fun a ha => ?_
      obtain ⟨as, hin, -⟩ := h.listed a ha
      simp only [Bool.not_eq_eq_eq_not, Bool.not_true, decide_eq_false_iff_not]
      rintro rfl
      rw [has] at hin
      cases hin
    rw [detach_of_none has, hstay]
    exact h
  | some as =>
    obtain ⟨hport, hattachments⟩ := detach_ports has
    refine h.detached has hport (fun p' hne => by rw [hattachments, if_neg hne]) fun as' has' => ?_
    rw [hattachments, if_pos rfl] at has'
    exact (Option.some.inj has').symm

/-- From every open source the taps of a pipeline that is detached are gone, and no others. -/
theorem port?_detach (h : s.Reflects hs) (p : Ref .pipeline) {id : RoutingId} {x : Port} (hx : s.port? id = some x)
    (hopen : x.closed = false) : (s.detach p).port? id = some (x.keep fun t => t.2 ≠ .pipeline p) := by
  cases has : s.attachments? p with
  | none =>
    have hstay : (x.taps.filter fun t => t.2 ≠ .pipeline p) = x.taps := by
      refine List.filter_eq_self.mpr fun t ht => decide_eq_true fun heq => ?_
      have hin : (t.1, p) ∈ x.attached := Port.mem_attached.mpr (by rw [← heq]; exact ht)
      rw [h.taps id x hx hopen] at hin
      obtain ⟨as, hlisted, -⟩ := h.listed _ (mem_attachedTo.mp hin)
      rw [has] at hlisted
      cases hlisted
    rw [detach_of_none has, hx, Port.keep, hstay]
  | some as =>
    rw [(detach_ports has).1, hx, Option.map_some]
    refine congrArg (fun taps => some ({ x with taps } : Port)) (List.filter_congr fun t ht => ?_)
    exact decide_eq_decide.mpr (not_congr (h.mem_listed_iff has hx hopen ht))

theorem dropPipeline (h : s.Reflects hs) (p : Ref .pipeline) :
    (s.dropPipeline p).Reflects (hs.filter fun a => !decide (p = a.pipeline)) := by
  cases has : s.attachments? p with
  | none =>
    have hdetached := h.detach p
    rw [detach_of_none has] at hdetached
    rwa [dropPipeline_of_none has]
  | some as =>
    obtain ⟨hport, hattachments, -⟩ := dropPipeline_ports has
    refine h.detached has (fun id => (hport id).trans ((detach_ports has).1 id))
      (fun p' hne => by rw [hattachments, if_neg hne]) fun as' has' => ?_
    rw [hattachments, if_pos rfl] at has'
    cases has'

theorem addPipeline (h : s.Reflects hs) (e : Ref .encoder) (settings : Settings) (o : Ref .output) :
    (s.addPipeline e settings o).2.Reflects hs := by
  obtain ⟨hport, hattachments, -⟩ := s.addPipeline_ports e settings o
  refine h.shrink (F := fun _ x => x) (fun id => ?_) (fun _ _ => ⟨rfl, fun _ ht => ht⟩) (fun _ _ hx => hx)
    (fun p as has a ha => ?_) (fun a ha => ⟨ha, ?_⟩) h.taps
  · rw [hport]
    exact Option.map_id'.symm
  · rcases hattachments p with hsame | ⟨-, hnew⟩
    · exact ⟨as, hsame.symm.trans has, ha⟩
    · rw [hnew] at has
      cases has
      cases ha
  · obtain ⟨as, has, hin⟩ := h.listed a ha
    rcases hattachments a.pipeline with hsame | ⟨hnone, -⟩
    · exact ⟨as, hsame.trans has, hin⟩
    · rw [has] at hnone
      cases hnone

end Reflects

/-! ### Steps and runs -/

/-- Raw frames are handed out in beats that are no actions. -/
theorem isAct_of_handsOut {a : Action} (ha : a.handsOut = true) : ∀ b ∈ s.beats a, b.isAct = false := by
  intro b hb
  cases b with
  | act a' =>
    obtain ⟨-, hout⟩ := act_of_mem_beats hb
    rw [ha] at hout
    cases hout
  | _ => rfl

/-- While raw frames are handed out, a pipeline pulls once for each that reaches it. -/
theorem pulls?_of_handsOut {x : Step} (hout : x.action.handsOut = true) (p : Ref .pipeline) :
    x.after.pulls? p = (x.before.pulls? p).map (· + x.fed.count p) := by
  have hafter : x.after = (x.before.beats x.action).foldl beat x.before := perform_eq_beats x.before x.action
  rw [hafter]
  exact (play_wiring (isAct_of_handsOut hout) x.before).2.2 p

theorem ends_of_handsOut {a : Action} (ha : a.handsOut = true) (h : Attachment) : a.ends h = false := by
  cases a with
  | capture | push | emit | pushRaw => rfl
  | _ => cases ha

/-- **A step keeps pumps and pipelines in agreement with what is in force.** -/
theorem reflects_step {x : Step} (h : x.before.Reflects hs) (hx : x.isSound = true) :
    x.after.Reflects (hs.filter (fun a => !x.action.ends a) ++ x.attachment?.toList) := by
  obtain ⟨s, a⟩ := x
  have hnone : (∀ a', a.ends a' = false) → Step.attachment? ⟨s, a⟩ = none → (s.perform a).2.Reflects hs →
      (Step.after ⟨s, a⟩).Reflects (hs.filter (fun a' => !a.ends a') ++ (Step.attachment? ⟨s, a⟩).toList) := by
    intro hends hmade hsame
    rw [hmade, Option.toList_none, List.append_nil, List.filter_eq_self.mpr fun a' _ => by rw [hends a']; rfl]
    exact hsame
  by_cases hout : a.handsOut = true
  · refine hnone (ends_of_handsOut hout) ?_ ?_
    · cases a <;> first | rfl | cases hout
    · rw [perform_eq_beats]
      exact h.untouched (play_wiring (isAct_of_handsOut hout) s).2.1
  by_cases hrewires : a.rewires = false
  · have hsame := (s.untouched_perform (by simpa using hout) hrewires).mono Prod.fst
    refine hnone (fun a' => ?_) ?_ (h.untouched hsame)
    · cases a <;> first | rfl | cases hrewires
    · cases a <;> first | rfl | cases hrewires
  cases a with
  | addSource r c => exact hnone (fun _ => rfl) rfl (h.addSource r c)
  | dropHandle id => exact hnone (fun _ => rfl) rfl (h.dropHandle id)
  | addPipeline e settings o => exact hnone (fun _ => rfl) rfl (h.addPipeline e settings o)
  | addTap id tap =>
    exact hnone (fun _ => rfl) rfl (h.addTap id (Option.isNone_iff_eq_none.mp hx))
  | removeTap id tap =>
    show (s.removeTap id tap).2.Reflects (_ ++ [])
    rw [List.append_nil]
    exact h.removeTap id tap
  | attach p id =>
    have hstay : (hs.filter fun a' => !(Action.attach p id).ends a') = hs := List.filter_eq_self.mpr fun _ _ => rfl
    show (s.attach p id).2.Reflects (hs.filter (fun a' => !(Action.attach p id).ends a') ++ [_])
    rw [hstay]
    obtain ⟨hp, hid⟩ := Bool.and_eq_true_iff.mp hx
    exact h.attach hp hid
  | detach p =>
    show (s.detach p).Reflects (_ ++ [])
    rw [List.append_nil]
    exact h.detach p
  | dropPipeline p =>
    show (s.dropPipeline p).Reflects (_ ++ [])
    rw [List.append_nil]
    exact h.dropPipeline p
  | _ => exact absurd rfl hrewires

/-- **Pumps and pipelines agree with what is in force in every run.** -/
theorem reflects_run (actions : List Action) {past : List Step} (h : s.Reflects (inForce past))
    (hsound : ∀ x ∈ s.steps actions, x.isSound = true) :
    (s.run actions).Reflects (inForce (past ++ s.steps actions)) := by
  induction actions generalizing s past with
  | nil =>
    rw [steps, List.append_nil]
    exact h
  | cons a rest ih =>
    have hstep := reflects_step (x := ⟨s, a⟩) h (hsound _ List.mem_cons_self)
    rw [← inForce_snoc] at hstep
    have hrest := ih hstep fun x hx => hsound x (List.mem_cons_of_mem _ hx)
    rwa [List.append_assoc] at hrest

/-! ### Who is fed -/

theorem filterMap_fed?_handings (src : Source) (id : RoutingId) (picture : Picture) (stamp : Stamped Int64)
    (hended : src.pump.ended = false) (hthere : ∀ a ∈ src.port.attached, (s.pipeline? a.2).isSome = true) :
    (handings src id picture stamp).filterMap (fun b => Moment.fed? ⟨s, b⟩) = src.port.attached.map Prod.snd := by
  have hfed : ∀ t ∈ src.pump.taps,
      Moment.fed? ⟨s, .hand { picture, timestamp := stamp, source := some id } t.2⟩ = t.2.pipeline? := by
    intro t ht
    obtain ⟨tap, t⟩ := t
    cases t with
    | recorder r => rfl
    | pipeline p =>
      have hp := hthere (tap, p) (Port.mem_attached.mpr ht)
      show (if (s.pipeline? p).isSome then some p else none) = some p
      rw [if_pos hp]
  unfold handings Port.attached
  rw [hended, if_neg Bool.false_ne_true, List.filterMap_map, List.map_filterMap]
  refine List.filterMap_congr fun t ht => ?_
  rw [Function.comp_apply, hfed t ht]
  exact (Option.map_map ..).trans (Option.map_id' ..) |>.symm

/-- A push on a live source: a frame is queued, if there is one, and the pump hands out one raw frame, with a stamp
unless it has one. -/
theorem beats_of_pushedTo? {a : Action} {id : RoutingId} {src : Source} (ha : a.pushedTo? = some id)
    (hsrc : s.source? id = some src) (hopen : src.closed = false) :
    ∃ stamps picture stamp, s.beats a = (Step.accepted? ⟨s, a⟩ id).toList.map (Beat.enter id) ++ stamps
        ++ handings src id picture stamp ∧
      ∀ b ∈ stamps, ∃ capture now, b = .stamp id capture now := by
  have hstamp : ∀ capture now, ∀ b ∈ [Beat.stamp id capture now], ∃ capture now, b = .stamp id capture now :=
    fun capture now b hb => ⟨capture, now, List.mem_singleton.mp hb⟩
  have hemission : ∀ capture now, s.emission id capture now
      = [.stamp id capture now]
        ++ handings src id src.pump.placeholder (src.pump.stamp capture now).1 := by
    intro capture now
    unfold emission
    rw [hsrc]
    rfl
  have hentry : ∀ f now, s.entry id f now
      = [.enter id f, .stamp id f.captureUs now]
        ++ handings src id src.pump.placeholder (src.pump.stamp f.captureUs now).1 := by
    intro f now
    unfold entry
    rw [hsrc]
    dsimp only
    rw [hopen, if_neg Bool.false_ne_true, hemission]
    rfl
  have hpush : ∀ f now, (s.push id f now).1 = true := by
    intro f now
    unfold push
    rw [hsrc]
    dsimp only
    rw [hopen, if_neg Bool.false_ne_true]
  cases a with
  | capture i tags payload now =>
    have hpayload : (if payload = [] then none else some i) = some id := ha
    split at hpayload
    · cases hpayload
    · next hne =>
      cases hpayload
      obtain ⟨f, hmake⟩ : ∃ f, EncodedFrame.make tags payload = .ok f := ⟨_, dif_neg hne⟩
      have haccepted : Step.accepted? ⟨s, .capture id tags payload now⟩ id = some f := by
        simp only [Step.accepted?, Step.reply, perform, capture, hmake, hpush, if_pos, Except.toOption]
      refine ⟨_, src.pump.placeholder, (src.pump.stamp f.captureUs now).1, ?_, hstamp f.captureUs now⟩
      rw [haccepted]
      simp only [beats, hmake]
      exact hentry f now
  | push i f now =>
    cases ha
    have haccepted : Step.accepted? ⟨s, .push id f now⟩ id = some f := by
      simp only [Step.accepted?, Step.reply, perform, hpush, if_pos]
    refine ⟨_, src.pump.placeholder, (src.pump.stamp f.captureUs now).1, ?_, hstamp f.captureUs now⟩
    rw [haccepted]
    exact hentry f now
  | emit i capture now =>
    cases ha
    exact ⟨_, _, _, hemission capture now, hstamp capture now⟩
  | pushRaw i picture stamp =>
    cases ha
    refine ⟨[], picture, stamp, ?_, fun b hb => ?_⟩
    · simp only [beats, hsrc]
      rfl
    · cases hb
  | _ => cases ha

theorem handsOut_of_pushedTo? {a : Action} {id : RoutingId} (ha : a.pushedTo? = some id) : a.handsOut = true := by
  cases a with
  | capture | push | emit | pushRaw => rfl
  | _ => cases ha

/-- **A push reaches the pipelines that are attached to the source**, each as often as it is attached, in the order
of attaching. -/
theorem fed_of_pushedTo? {x : Step} (h : x.before.Reflects hs) {id : RoutingId} (hid : x.action.pushedTo? = some id)
    (hlive : x.before.IsLive id) : x.fed = (hs.filter fun a => a.source = id).map Attachment.pipeline := by
  obtain ⟨src, hsrc, hopen⟩ := hlive
  have hport : x.before.port? id = some src.port := by rw [port?, hsrc, Option.map_some]
  have htaps := h.taps id src.port hport hopen
  have hended : src.pump.ended = false := (h.ended id src.port hport).trans hopen
  have hthere : ∀ a ∈ src.port.attached, (x.before.pipeline? a.2).isSome = true := by
    intro a ha
    rw [htaps] at ha
    obtain ⟨as, has, -⟩ := h.listed _ (mem_attachedTo.mp ha)
    obtain ⟨q, hq, -⟩ := Option.map_eq_some_iff.mp has
    have hq' : x.before.pipeline? a.2 = some q := hq
    rw [hq']
    rfl
  obtain ⟨stamps, picture, stamp, hbeats, hstamps⟩ := beats_of_pushedTo? hid hsrc hopen
  have hahead : ∀ b ∈ (Step.accepted? x id).toList.map (Beat.enter id) ++ stamps,
      Moment.fed? ⟨x.before, b⟩ = none := by
    intro b hb
    rcases List.mem_append.mp hb with hb | hb
    · obtain ⟨f, -, rfl⟩ := List.mem_map.mp hb
      rfl
    · obtain ⟨capture, now, rfl⟩ := hstamps b hb
      rfl
  unfold Step.fed
  rw [(play_wiring (isAct_of_handsOut (handsOut_of_pushedTo? hid)) x.before).1, hbeats, List.filterMap_append,
    List.filterMap_eq_nil_iff.mpr hahead, List.nil_append,
    filterMap_fed?_handings src id picture stamp hended hthere, htaps, attachedTo, List.map_map]
  rfl

/-- Nothing else reaches a pipeline. -/
theorem fed_eq_nil {x : Step} (h : x.before.Reflects hs)
    (hx : ∀ id, x.action.pushedTo? = some id → ¬ x.before.IsLive id) : x.fed = [] := by
  obtain ⟨s, a⟩ := x
  have hclosed : ∀ id src, a.pushedTo? = some id → s.source? id = some src →
      src.closed = true ∧ ∀ picture stamp, handings src id picture stamp = [] := by
    intro id src hid hsrc
    have hport : s.port? id = some src.port := by rw [port?, hsrc, Option.map_some]
    have hclosed : src.closed = true := by
      cases hopen : src.closed with
      | true => rfl
      | false => exact absurd ⟨src, hsrc, hopen⟩ (hx id hid)
    refine ⟨hclosed, fun picture stamp => ?_⟩
    have hended : src.pump.ended = true := (h.ended id src.port hport).trans hclosed
    unfold handings
    rw [hended, if_pos rfl]
  have hentry : ∀ id f now, a.pushedTo? = some id → s.entry id f now = [] := by
    intro id f now hid
    unfold entry
    split
    · rfl
    · next src hsrc => rw [(hclosed id src hid hsrc).1, if_pos rfl]
  show (s.play (s.beats a)).filterMap Moment.fed? = []
  cases a with
  | capture id tags payload now =>
    simp only [beats]
    split
    · rfl
    · next f hf =>
      have hne : payload ≠ [] := by
        rintro rfl
        cases hf
      rw [hentry id f now (if_neg hne)]
      rfl
  | push id f now =>
    simp only [beats, hentry id f now rfl]
    rfl
  | emit id capture now =>
    simp only [beats, emission]
    split
    · rfl
    · next src hsrc =>
      rw [(hclosed id src rfl hsrc).2]
      rfl
  | pushRaw id picture stamp =>
    simp only [beats]
    split
    · rfl
    · next src hsrc =>
      rw [(hclosed id src rfl hsrc).2]
      rfl
  | _ => rfl

/-- A pipeline that is detached or let go of leaves the taps of others, and their lists. -/
theorem leaves_others (h : s.Reflects hs) {a : Action} {p : Ref .pipeline} (ha : a = .detach p ∨ a = .dropPipeline p) :
    (∀ id src, s.source? id = some src → src.closed = false → ∃ src', (s.perform a).2.source? id = some src' ∧
      src'.closed = false ∧ src'.pump.taps = src.pump.taps.filter fun t => t.2 ≠ .pipeline p) ∧
    ∀ p', p' ≠ p → (s.perform a).2.attachments? p' = s.attachments? p' := by
  have hports : (∀ id, (s.perform a).2.port? id = (s.detach p).port? id) ∧
      ∀ p', p' ≠ p → (s.perform a).2.attachments? p' = s.attachments? p' := by
    rcases ha with rfl | rfl
    · exact ⟨fun _ => rfl, fun p' hne => attachments?_detach s hne.symm⟩
    · exact ⟨port?_dropPipeline s p, fun p' hne => attachments?_dropPipeline s hne.symm⟩
  refine ⟨fun id src hsrc hopen => ?_, hports.2⟩
  have hport : s.port? id = some src.port := by rw [port?, hsrc, Option.map_some]
  have hafter := (hports.1 id).trans (h.port?_detach p hport hopen)
  obtain ⟨src', hsrc', hsame⟩ := Option.map_eq_some_iff.mp hafter
  exact ⟨src', hsrc', (congrArg Port.closed hsame).trans hopen, congrArg Port.taps hsame⟩

/-- A pipeline of which no attachment is in force is reached by nothing, and has no tap at a live source. -/
theorem not_mem_fed {x : Step} {p : Ref .pipeline} (h : x.before.Reflects hs) (hgone : ∀ a ∈ hs, a.pipeline ≠ p) :
    p ∉ x.fed ∧
    ∀ id src, x.before.source? id = some src → src.closed = false → ∀ tap, (tap, .pipeline p) ∉ src.pump.taps := by
  refine ⟨fun hin => ?_, fun id src hsrc hopen tap htap => ?_⟩
  · by_cases hlive : ∃ id, x.action.pushedTo? = some id ∧ x.before.IsLive id
    · obtain ⟨id, hid, hlive⟩ := hlive
      rw [fed_of_pushedTo? h hid hlive] at hin
      obtain ⟨a, ha, hp⟩ := List.mem_map.mp hin
      exact hgone a (List.mem_filter.mp ha).1 hp
    · rw [fed_eq_nil h fun id hid hl => hlive ⟨id, hid, hl⟩] at hin
      cases hin
  · have hport : x.before.port? id = some src.port := by rw [port?, hsrc, Option.map_some]
    have hin : (tap, p) ∈ src.port.attached := Port.mem_attached.mpr htap
    rw [h.taps id src.port hport hopen] at hin
    exact hgone _ (mem_attachedTo.mp hin) rfl

end Session

open Session in
/-- **Pulls follow attachments.**  At any moment of any run, whatever attachments were made and ended until then:
a push on a live source reaches the pipelines attached to it in the order of attaching, and each counts as many
pulls as it has attachments to this source in force; no other action is a pull of any pipeline.  Detaching a
pipeline, or letting go of it, takes its taps from every live source and leaves there all others, and the lists of
all other pipelines; and until it is attached again no live source has a tap of it and nothing reaches it. -/
theorem pulls_follow_attachments (past : List Action) (a : Action)
    (hsound : ∀ x ∈ ({} : Session).steps past, x.isSound = true) :
    let s := ({} : Session).run past
    let x : Step := ⟨s, a⟩
    let attached := inForce (({} : Session).steps past)
    (∀ id, a.pushedTo? = some id → s.IsLive id →
      x.fed = (attached.filter fun h => h.source = id).map Attachment.pipeline ∧
      ∀ p, x.after.pulls? p = (s.pulls? p).map (· + attached.countP fun h => h.source = id ∧ h.pipeline = p)) ∧
    ((∀ id, a.pushedTo? = some id → ¬ s.IsLive id) →
      x.fed = [] ∧ ∀ p m n, s.pulls? p = some m → x.after.pulls? p = some n → n = m) ∧
    (∀ p, a = .detach p ∨ a = .dropPipeline p →
      (∀ id src, s.source? id = some src → src.closed = false → ∃ src', x.after.source? id = some src' ∧
        src'.closed = false ∧ src'.pump.taps = src.pump.taps.filter fun t => t.2 ≠ .pipeline p) ∧
      ∀ p', p' ≠ p → x.after.attachments? p' = s.attachments? p') ∧
    ∀ p earlier y later, ({} : Session).steps past = earlier ++ y :: later →
      y.action = .detach p ∨ y.action = .dropPipeline p → (∀ z ∈ later, ∀ id, z.action ≠ .attach p id) →
      p ∉ x.fed ∧
        ∀ id src, s.source? id = some src → src.closed = false → ∀ tap, (tap, .pipeline p) ∉ src.pump.taps := by
  intro s x attached
  have hempty : ({} : Session).Reflects (inForce []) := Reflects.empty
  have h : s.Reflects attached := reflects_run past hempty hsound
  refine ⟨fun id hid hlive => ?_, fun hother => ?_, fun p hp => ?_, fun p earlier y later hsplit hy hlater => ?_⟩
  · have hfed := fed_of_pushedTo? (x := x) h hid hlive
    refine ⟨hfed, fun p => ?_⟩
    have hcount : x.fed.count p = attached.countP fun h => h.source = id ∧ h.pipeline = p := by
      rw [hfed, List.count_eq_countP, List.countP_map, List.countP_filter]
      refine List.countP_congr fun h _ => ?_
      simp [and_comm]
    rw [← hcount]
    exact pulls?_of_handsOut (x := x) (handsOut_of_pushedTo? hid) p
  · have hfed := fed_eq_nil (x := x) h hother
    refine ⟨hfed, fun p m n hm hn => ?_⟩
    by_cases hout : a.handsOut = true
    · have hpulls := pulls?_of_handsOut (x := x) hout p
      rw [hfed, hn] at hpulls
      exact Option.some.inj (hpulls.trans (congrArg _ hm))
    · exact s.pulls?_perform (by simpa using hout) hm hn
  · exact leaves_others h hp
  · have hgone : ∀ a ∈ inForce (earlier ++ y :: later), a.pipeline ≠ p := not_mem_inForce hy hlater
    rw [← hsplit] at hgone
    exact not_mem_fed (x := x) h hgone

/-- Two pipelines and two sources: the first pipeline is attached twice to the first source and once to the second,
where its tap has the name of a tap at the first; then one of its taps is removed by name. -/
def crossedAttachments : List Action :=
  [.addRegistry, .addOutput (.collector #[]), .addSource ⟨1⟩ {}, .addSource ⟨1⟩ {},
    .addEncoder (.passthrough (Passthrough.make (.routed ⟨1⟩) .h264 {} none)),
    .addEncoder (.passthrough (Passthrough.make (.bound ⟨1⟩) .h264 {} none)),
    .addPipeline ⟨1⟩ ⟨.h264, 640, 480, 30, []⟩ ⟨1⟩, .addPipeline ⟨2⟩ ⟨.h264, 640, 480, 30, []⟩ ⟨1⟩,
    .attach ⟨1⟩ ⟨1⟩, .attach ⟨2⟩ ⟨1⟩, .attach ⟨1⟩ ⟨1⟩, .attach ⟨1⟩ ⟨2⟩, .removeTap ⟨1⟩ 1]

/-- A key frame for the first source. -/
def keyFrameIn : Action := .capture ⟨1⟩ { width := 640, height := 480, isKey := true } [0x65] 1

theorem pulls_follow_attachments_crossed :
    (∀ x ∈ ({} : Session).steps crossedAttachments, x.isSound = true) ∧
    (∀ x ∈ ({} : Session).steps (crossedAttachments ++ [.detach ⟨1⟩]), x.isSound = true) ∧
    keyFrameIn.pushedTo? = some ⟨1⟩ ∧
    inForce (({} : Session).steps crossedAttachments) = [⟨⟨2⟩, ⟨1⟩, 2⟩, ⟨⟨1⟩, ⟨1⟩, 3⟩, ⟨⟨1⟩, ⟨2⟩, 1⟩] ∧
    Step.fed ⟨({} : Session).run crossedAttachments, keyFrameIn⟩ = [⟨2⟩, ⟨1⟩] ∧
    Step.fed ⟨({} : Session).run (crossedAttachments ++ [.detach ⟨1⟩]), keyFrameIn⟩ = [⟨2⟩] := by
  have hsound : ∀ x ∈ ({} : Session).steps crossedAttachments, x.isSound = true := by decide +kernel
  have hdetached : ∀ x ∈ ({} : Session).steps (crossedAttachments ++ [.detach ⟨1⟩]), x.isSound = true := by
    decide +kernel
  have hpush : keyFrameIn.pushedTo? = some ⟨1⟩ := rfl
  have hfirst := (pulls_follow_attachments crossedAttachments keyFrameIn hsound).1 ⟨1⟩ hpush ⟨_, rfl, rfl⟩
  have hsecond := (pulls_follow_attachments (crossedAttachments ++ [.detach ⟨1⟩]) keyFrameIn hdetached).1 ⟨1⟩ hpush
    ⟨_, rfl, rfl⟩
  refine ⟨hsound, hdetached, hpush, by decide +kernel, hfirst.1.trans ?_, hsecond.1.trans ?_⟩
  · decide +kernel
  · decide +kernel

end EncodedFeed
