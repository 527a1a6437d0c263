import EncodedFeed.Proofs.Session.Kept
import EncodedFeed.Proofs.Session.Run
import Mathlib.Tactic.Set

/-!
# Frames are conserved

Frames accepted by a source are those that have left its queue, in the order in which they left, followed
by those still waiting.  A frame that leaves through an encoder is presented at once to one output, with
payload, size and flags as they were; outputs get nothing but what is presented to them.

`Relays` is what calls and raw frames do to a session in this respect; it is kept by all elementary
changes, so it is `Kept` by calls and `Carried` through raw frames and pipelines.
-/

namespace EncodedFeed

/-! ### Reading events -/

/-- The image is the frame: payload, size and flags are the same. -/
structure EmittedImage.Carries (i : EmittedImage) (f : EncodedFrame) : Prop where
  data : i.image.data = f.payload
  width : i.image.width = f.width
  height : i.image.height = f.height
  frameType : i.image.frameType = FrameType.ofKey f.isKey
  parameterSets : i.image.hasParameterSets = f.hasParameterSets

theorem Passthrough.image_carries (p : Passthrough) (f : EncodedFrame) (raw : RawFrame) :
    (p.image f raw).Carries f := ⟨rfl, rfl, rfl, rfl, rfl⟩

namespace Event

/-- The frame that left the queue of a source. -/
def removed? (id : RoutingId) : Event → Option EncodedFrame
  | taken i f => if i = id then some f else none
  | _ => none

/-- The image presented to an output. -/
def presented? (o : Ref .output) : Event → Option EmittedImage
  | presented o' i _ => if o' = o then some i else none
  | _ => none

end Event

/-- An image that was presented to an output, and how that went. -/
def Event.offered? (o : Ref .output) : Event → Option (EmittedImage × Option SinkError)
  | presented o' i r => if o' = o then some (i, r) else none
  | _ => none

/-- The source that is asked for a keyframe. -/
def Event.asked? : Event → Option RoutingId
  | asked id => some id
  | _ => none

/-- Frames that left the queue of a source, in order. -/
def removedFrom (id : RoutingId) (es : List Event) : List EncodedFrame := es.filterMap (Event.removed? id)

/-- Images presented to an output, in order. -/
def presentedTo (o : Ref .output) (es : List Event) : List EmittedImage :=
  es.filterMap (Event.presented? o)

/-- The sources asked for keyframes, in order. -/
def askedIn (es : List Event) : List RoutingId := es.filterMap Event.asked?

theorem removedFrom_append (id : RoutingId) (es es' : List Event) :
    removedFrom id (es ++ es') = removedFrom id es ++ removedFrom id es' := List.filterMap_append

theorem presentedTo_append (o : Ref .output) (es es' : List Event) :
    presentedTo o (es ++ es') = presentedTo o es ++ presentedTo o es' := List.filterMap_append

theorem askedIn_append (es es' : List Event) : askedIn (es ++ es') = askedIn es ++ askedIn es' :=
  List.filterMap_append

theorem removedFrom_pair (j id : RoutingId) (f : EncodedFrame) (o : Ref .output) (i : EmittedImage)
    (r : Option SinkError) :
    removedFrom j [.taken id f, .presented o i r] = if id = j then [f] else [] := by
  by_cases h : id = j <;> simp [removedFrom, List.filterMap_cons, Event.removed?, h]

theorem presentedTo_pair (o' : Ref .output) (id : RoutingId) (f : EncodedFrame) (o : Ref .output)
    (i : EmittedImage) (r : Option SinkError) :
    presentedTo o' [.taken id f, .presented o i r] = if o = o' then [i] else [] := by
  by_cases h : o = o' <;> simp [presentedTo, List.filterMap_cons, Event.presented?, h]

/-- Each frame that leaves a queue is presented next, unchanged, to one output, and nothing else is
presented. -/
inductive HandedOn : List Event → Prop
  | nil : HandedOn []
  | pushed {id f es} : HandedOn es → HandedOn (.pushed id f :: es)
  | asked {id es} : HandedOn es → HandedOn (.asked id :: es)
  | warned {w es} : HandedOn es → HandedOn (.warned w :: es)
  | passed {id f o i r es} : i.Carries f → HandedOn es →
    HandedOn (.taken id f :: .presented o i r :: es)

theorem HandedOn.append {es es' : List Event} (h : HandedOn es) (h' : HandedOn es') :
    HandedOn (es ++ es') := by
  induction h with
  | nil => exact h'
  | pushed _ ih => exact .pushed ih
  | asked _ ih => exact .asked ih
  | warned _ ih => exact .warned ih
  | passed hc _ ih => exact .passed hc ih

/-- An output after images have been offered to it. -/
def Output.offerAll (out : Output) (images : List EmittedImage) : Output :=
  images.foldl (fun out i => (out.offer i).2) out

theorem Output.offerAll_append (out : Output) (is js : List EmittedImage) :
    out.offerAll (is ++ js) = (out.offerAll is).offerAll js := List.foldl_append

/-- Images an output was presented with, and the refusals. -/
def Session.received (s : Session) (o : Ref .output) : List (EmittedImage × Option SinkError) :=
  s.journal.reverse.filterMap (Event.offered? o)

/-! ### What calls and raw frames do -/

/-- From `s` to `t` the events `es` happen: frames leave queues only to be handed on, no source is closed,
and outputs get what is presented to them. -/
structure Relays (es : List Event) (s t : Session) : Prop where
  journal : t.journal = es.reverse ++ s.journal
  handedOn : HandedOn es
  queue (id : RoutingId) : s.queue id = removedFrom id es ++ t.queue id
  closed (id : RoutingId) : t.isClosed id = s.isClosed id
  offered {o : Ref .output} {out : Output} : s.output? o = some out →
    t.output? o = some (out.offerAll (presentedTo o es))

namespace Relays

variable {s t u : Session} {es es' : List Event}

theorem trans (h : Relays es s t) (h' : Relays es' t u) : Relays (es ++ es') s u where
  journal := by rw [h'.journal, h.journal, List.reverse_append, List.append_assoc]
  handedOn := h.handedOn.append h'.handedOn
  queue id := by
    rw [h.queue id, h'.queue id, removedFrom_append, List.append_assoc]
  closed id := (h'.closed id).trans (h.closed id)
  offered ho := by
    rw [h'.offered (h.offered ho), presentedTo_append, Output.offerAll_append]

/-- Sources that keep their queues, outputs that stay as they are: nothing happens. -/
theorem quiet (hj : t.journal = s.journal) (hq : ∀ id, t.queue id = s.queue id)
    (hc : ∀ id, t.isClosed id = s.isClosed id)
    (ho : ∀ o out, s.output? o = some out → t.output? o = some out) : Relays [] s t where
  journal := hj
  handedOn := .nil
  queue id := (hq id).symm
  closed := hc
  offered {o out} h := ho o out h

/-- A change that touches neither the journal nor sources nor outputs. -/
theorem elsewhere (hj : t.journal = s.journal) (hs : t.sources = s.sources)
    (ho : t.outputs = s.outputs) : Relays [] s t := by
  have hsrc : ∀ id, t.source? id = s.source? id := fun id => by rw [Session.source?, hs]; rfl
  refine quiet hj (fun id => Session.queue_of_source?_eq (hsrc id))
    (fun id => Session.isClosed_of_source?_eq (hsrc id)) fun o out h => ?_
  rw [Session.output?, ho]
  exact h

theorem modifySource (s : Session) (id : RoutingId) {f : Source → Source}
    (hq : ∀ src, (f src).queue = src.queue) (hc : ∀ src, (f src).closed = src.closed) :
    Relays [] s (s.modifySource id f) :=
  quiet rfl (Session.queue_modifySource_of_eq s id f hq)
    (Session.isClosed_modifySource_of_eq s id f hc)
    fun _ _ h => h

/-- Noting an event that moves no frame. -/
theorem note (s : Session) {e : Event} (he : HandedOn [e]) (hr : ∀ id, e.removed? id = none)
    (hp : ∀ o, e.presented? o = none) : Relays [e] s (s.note e) where
  journal := rfl
  handedOn := he
  queue id := by simp only [removedFrom, List.filterMap_cons, hr]; rfl
  closed _ := rfl
  offered {o out} h := by
    have hnil : presentedTo o [e] = [] := by simp only [presentedTo, List.filterMap_cons, hp]; rfl
    rw [hnil]
    exact h

theorem warn (s : Session) (w : Warning) : Relays [.warned w] s (s.warn w) :=
  note s (.warned .nil) (fun _ => rfl) fun _ => rfl

theorem requestKeyframe (s : Session) (id : RoutingId) : Relays [.asked id] s (s.requestKeyframe id) := by
  have hmod := modifySource s id (f := Source.requestKeyframe) (fun _ => rfl) fun _ => rfl
  have hnote := hmod.trans (note (s.modifySource id Source.requestKeyframe) (e := .asked id)
    (.asked .nil) (fun _ => rfl) fun _ => rfl)
  unfold Session.requestKeyframe
  dsimp only
  split
  · exact hnote
  · exact hnote.trans (elsewhere rfl rfl rfl)

end Relays

/-! ### Taking a frame and presenting it -/

namespace Session

theorem present_fst (s : Session) (d : Destination) (i : EmittedImage) :
    (s.present d i).1 = (s.output? d.output).bind fun o => (o.offer i).1 := by
  unfold present
  dsimp only
  split
  · next heq _ => exact heq.symm
  · rfl

theorem present_snd (s : Session) (d : Destination) (i : EmittedImage) :
    (s.present d i).2.sources = s.sources ∧
    (s.present d i).2.journal = .presented d.output i (s.present d i).1 :: s.journal ∧
    (s.present d i).2.outputs = (s.modifyOutput d.output fun o => (o.offer i).2).outputs := by
  rw [present_fst]
  unfold present
  dsimp only
  split <;> exact ⟨rfl, rfl, rfl⟩

/-- A frame that is taken for an encoder is presented in the same breath. -/
theorem relays_present {s : Session} {id : RoutingId} {f : EncodedFrame} {rest : List EncodedFrame}
    (hq : s.queue id = f :: rest) (d : Destination) {i : EmittedImage} (hi : i.Carries f) :
    ∃ r, Relays [.taken id f, .presented d.output i r] s ((s.take id).2.present d i).2 := by
  rw [take_of_queue_cons hq]
  set t := (s.modifySource id fun src => { src with queue := rest }).note (.taken id f) with ht
  obtain ⟨hsrc, hj, hout⟩ := present_snd t d i
  have hsource : ∀ j, (t.present d i).2.source? j
      = (s.modifySource id fun src => { src with queue := rest }).source? j := fun j => by
    rw [source?, hsrc]; rfl
  refine ⟨(t.present d i).1, hj, .passed hi .nil, fun j => ?_, fun j => ?_, fun {o out} ho => ?_⟩
  · rw [queue_of_source?_eq (hsource j), removedFrom_pair]
    exact queue_dequeue hq j
  · rw [isClosed_of_source?_eq (hsource j), isClosed_modifySource_of_eq]
    exact fun _ => rfl
  · have hpres : (t.present d i).2.output? o
        = (s.modifyOutput d.output fun o => (o.offer i).2).output? o := by
      rw [output?, hout]; rfl
    rw [hpres, output?_modifyOutput, presentedTo_pair]
    by_cases hd : d.output = o
    · rw [if_pos hd, if_pos hd, ho]
      rfl
    · rw [if_neg hd, if_neg hd, ho]
      rfl

theorem relays_passOn (s : Session) (p : Passthrough) (d : Destination) (id : RoutingId)
    (raw : RawFrame) : ∃ es, Relays es s (s.passOn p d id raw).2.2 := by
  unfold passOn
  cases hq : s.queue id with
  | nil =>
    rw [take_of_queue_nil hq]
    exact ⟨[], Relays.elsewhere rfl rfl rfl⟩
  | cons f rest =>
    obtain ⟨r, hr⟩ := relays_present hq d (p.image_carries f raw)
    have hf : (s.take id).1 = some f := by rw [take_of_queue_cons hq]
    split
    · next heq => rw [heq] at hf; cases hf
    · next f' t heq =>
      rw [heq, Option.some.injEq] at hf
      subst hf
      rw [heq] at hr
      split
      · next e u hu =>
        rw [hu] at hr
        exact ⟨_, hr.trans (Relays.warn u _)⟩
      · next u hu =>
        rw [hu] at hr
        exact ⟨_, hr⟩

end Session

theorem kept_relays : Kept fun s t => ∃ es, Relays es s t where
  refl _ := ⟨[], Relays.elsewhere rfl rfl rfl⟩
  trans := fun ⟨_, h⟩ ⟨_, h'⟩ => ⟨_, h.trans h'⟩
  warn s w := ⟨_, Relays.warn s w⟩
  ask s id := ⟨_, Relays.requestKeyframe s id⟩
  passOn := Session.relays_passOn
  fallback _ _ _ := ⟨[], Relays.elsewhere rfl rfl rfl⟩
  encoder _ _ _ := ⟨[], Relays.elsewhere rfl rfl rfl⟩

theorem carried_relays : Carried fun s t => ∃ es, Relays es s t where
  refl := kept_relays.refl
  trans := kept_relays.trans
  warn := kept_relays.warn
  call := kept_relays.call
  drop _ _ := ⟨[], Relays.elsewhere rfl rfl rfl⟩
  pipeline _ _ _ _ := ⟨[], Relays.elsewhere rfl rfl rfl⟩
  recorder _ _ _ := ⟨[], Relays.elsewhere rfl rfl rfl⟩
  pump s id _ _ := ⟨[], Relays.modifySource s id (fun _ => rfl) fun _ => rfl⟩

/-! ### Actions that only relay -/

namespace Session

theorem relays_register (s : Session) (r : Ref .registry) (id source : RoutingId) :
    ∃ es, Relays es s (s.register r id source).2 := by
  unfold register
  split
  · exact ⟨_, Relays.warn s _⟩
  · exact ⟨[], Relays.elsewhere rfl rfl rfl⟩

theorem relays_addSource (s : Session) (r : Ref .registry) (c : SourceConfig) :
    ∃ es, Relays es s (s.addSource r c).2 := by
  set t : Session := { s with sources := s.sources.add (Source.ofConfig c r) } with ht
  have hnew : ∀ id, t.source? id
      = if id.number = s.sources.next then some (Source.ofConfig c r) else s.source? id :=
    fun id => Table.get?_add _ _ _
  -- the new source is open and its queue is empty, as if it were not there
  have hadd : Relays [] s t := by
    refine Relays.quiet rfl (fun id => ?_) (fun id => ?_) fun _ _ h => h
    · rw [queue, hnew]
      split
      · next heq =>
        have : s.source? id = none := by rw [source?, heq]; exact Table.get?_next _
        simp [queue, this, Source.ofConfig]
      · rfl
    · rw [isClosed, hnew]
      split
      · next heq =>
        have : s.source? id = none := by rw [source?, heq]; exact Table.get?_next _
        simp [isClosed, this, Source.ofConfig]
      · rfl
  obtain ⟨es, hes⟩ := t.relays_register r ⟨s.sources.next⟩ ⟨s.sources.next⟩
  exact ⟨_, hadd.trans hes⟩

end Session

/-- Nothing is pushed or taken by hand, no handle is dropped and no output is read. -/
def Action.relays : Action → Bool
  | capture _ _ _ _ | push _ _ _ | take _ | dropHandle _ => false
  | a => !a.readsOutput

theorem Session.relays_perform (s : Session) (a : Action) (ha : a.relays = true) :
    ∃ es, Relays es s (s.perform a).2 := by
  have h := carried_relays
  have aside : ∀ {t : Session}, t.journal = s.journal → t.sources = s.sources →
      t.outputs = s.outputs → ∃ es, Relays es s t := fun hj hs ho => ⟨[], Relays.elsewhere hj hs ho⟩
  cases a with
  | addRegistry | addFallback | addRecorder | addObserver | addEncoder | dropEncoder | unregister
  | wantKeyframe => exact aside rfl rfl rfl
  | addOutput o =>
    exact ⟨[], Relays.quiet rfl (fun _ => rfl) (fun _ => rfl) fun o' _ h => s.output?_addOutput o' o h⟩
  | addSource r c => exact s.relays_addSource r c
  | addPipeline e c o =>
    refine h.addPipeline ?_ s e c o
    exact fun _ _ => ⟨[], Relays.elsewhere rfl rfl rfl⟩
  | register r id source => exact s.relays_register r id source
  | addHandle id | consumeKeyframeRequest id | watch id w =>
    exact ⟨[], Relays.modifySource s id (fun _ => rfl) fun _ => rfl⟩
  | requestKeyframe id => exact kept_relays.ask s id
  | emit id capture now => exact h.emit s id capture now
  | pushRaw id picture t => exact h.pushRaw s id picture t
  | addTap id tap => exact h.pump s id (fun p => (p.addTap tap).2) fun _ => rfl
  | removeTap id tap => exact h.pump s id (fun p => p.removeTap tap) fun _ => rfl
  | call e c => exact h.call s e c
  | attach p id => exact h.attach s p id
  | detach p => exact h.detach s p
  | hintRate p hint => exact h.hintRate s p hint
  | dropPipeline p =>
    refine h.dropPipeline ?_ s p
    exact fun _ _ => ⟨[], Relays.elsewhere rfl rfl rfl⟩
  | capture | push | take | dropHandle | collect | subscribe | unsubscribe | receive | dropOutput =>
    cases ha

/-! ### Pushing -/

namespace Session

theorem push_cases (s : Session) (id : RoutingId) (f : EncodedFrame) (now : Int64) :
    s.push id f now = (false, s) ∨
    (s.push id f now).1 = true ∧ (∃ src, s.source? id = some src) ∧
      ∃ es, Relays es ((s.modifySource id fun src => src.enqueue f).note (.pushed id f))
        (s.push id f now).2 := by
  unfold push
  split
  · exact .inl rfl
  · next src hs =>
    split
    · exact .inl rfl
    · exact .inr ⟨rfl, ⟨src, hs⟩, carried_relays.trans (carried_relays.checkDepth _ id)
        (carried_relays.emit _ id _ now)⟩

end Session

/-! ### Steps of a run -/

namespace Step

/-- The frame a source has accepted, if it has. -/
def accepted? (x : Step) (id : RoutingId) : Option EncodedFrame :=
  match x.action, x.reply with
  | .push i f _, .accepted true => if i = id then some f else none
  | .capture i tags payload _, .accepted true =>
    if i = id then (EncodedFrame.make tags payload).toOption else none
  | _, _ => none

/-- What a step does with frames that leave a queue.  A take gives the frame to whoever asked; any other
step presents it at once to one output.  Unless the application reads outputs, they change by what is
presented to them alone. -/
def HandsOver (x : Step) : Prop :=
  match x.action with
  | .take id => ∃ f : Option EncodedFrame, x.reply = .frame f ∧ x.events = f.toList.map (.taken id)
  | a => HandedOn x.events ∧ (a.readsOutput = false → ∀ o out, x.before.output? o = some out →
      x.after.output? o = some (out.offerAll (presentedTo o x.events)))

/-- A step keeps the balance of each source it does not close, and reopens none. -/
structure Balanced (x : Step) : Prop where
  queue (id : RoutingId) : x.after.isClosed id = false →
    x.before.queue id ++ (x.accepted? id).toList = removedFrom id x.events ++ x.after.queue id
  closed (id : RoutingId) : x.before.isClosed id = true → x.after.isClosed id = true
  handsOver : x.HandsOver

theorem handsOver_of_not_take {x : Step} (ht : ∀ id, x.action ≠ .take id) (hon : HandedOn x.events)
    (ho : x.action.readsOutput = false → ∀ o out, x.before.output? o = some out →
      x.after.output? o = some (out.offerAll (presentedTo o x.events))) : x.HandsOver := by
  unfold HandsOver
  split
  · next id heq => exact absurd heq (ht id)
  · exact ⟨hon, ho⟩

theorem balanced_of_relays {x : Step} {l : List Event} (h : Relays l x.before x.after)
    (ht : ∀ id, x.action ≠ .take id) (ha : ∀ id, x.accepted? id = none) : x.Balanced := by
  have hes : x.events = l := Session.eventsSince_eq h.journal
  refine ⟨fun id _ => ?_, fun id hc => ?_, handsOver_of_not_take ht ?_ fun _ o out ho => ?_⟩
  · rw [ha id, hes, ← h.queue id, Option.toList_none, List.append_nil]
  · rw [h.closed id, hc]
  · rw [hes]; exact h.handedOn
  · rw [hes]; exact h.offered ho

/-- Of a push only the frame, its source and the answer matter, not the action that made it. -/
theorem balanced_of_push {x : Step} {id : RoutingId} {f : EncodedFrame} {now : Int64}
    (hafter : x.after = (x.before.push id f now).2) (ht : ∀ id, x.action ≠ .take id)
    (ha : ∀ j, x.accepted? j = if (x.before.push id f now).1 = true ∧ id = j then some f else none) :
    x.Balanced := by
  rcases x.before.push_cases id f now with hno | ⟨hyes, ⟨src, hs⟩, es, hes⟩
  · rw [hno] at hafter ha
    refine balanced_of_relays (l := []) ?_ ht fun j => ?_
    · rw [hafter]; exact Relays.elsewhere rfl rfl rfl
    · rw [ha j]; simp
  · rw [← hafter] at hes
    have hev : x.events = .pushed id f :: es := by
      refine Session.eventsSince_eq (hes.journal.trans ?_)
      simp [Session.note, Session.modifySource]
    refine ⟨fun j _ => ?_, fun j hc => ?_, handsOver_of_not_take ht ?_ fun _ o out ho => ?_⟩
    · have hq := hes.queue j
      rw [show ((x.before.modifySource id fun src => src.enqueue f).note (.pushed id f)).queue j
        = (x.before.modifySource id fun src => src.enqueue f).queue j from rfl,
        Session.queue_enqueue hs] at hq
      have hacc : (x.accepted? j).toList = if id = j then [f] else [] := by
        rw [ha j, hyes]
        by_cases hj : id = j <;> simp [hj]
      rw [hacc, hq, hev]
      rfl
    · rw [hes.closed j]
      exact (Session.isClosed_modifySource_of_eq x.before id (fun src => src.enqueue f)
        (fun _ => rfl) j).trans hc
    · rw [hev]; exact .pushed hes.handedOn
    · rw [hev]; exact hes.offered ho

theorem balanced_push (s : Session) (id : RoutingId) (f : EncodedFrame) (now : Int64) :
    Balanced ⟨s, .push id f now⟩ := by
  refine balanced_of_push rfl (fun _ h => by cases h) fun j => ?_
  simp only [accepted?, reply, Session.perform]
  cases (s.push id f now).1 <;> simp

theorem balanced_capture (s : Session) (id : RoutingId) (tags : FrameTags) (payload : Octets)
    (now : Int64) : Balanced ⟨s, .capture id tags payload now⟩ := by
  cases hf : EncodedFrame.make tags payload with
  | error e =>
    have hcap : s.capture id tags payload now = (false, s.warn (.emptyFrame id)) := by
      simp only [Session.capture, hf]
    refine balanced_of_relays (l := [.warned (.emptyFrame id)]) ?_ (fun _ h => by cases h) fun j => ?_
    · simp only [after, Session.perform, hcap]
      exact Relays.warn s _
    · simp only [accepted?, reply, Session.perform, hcap]
  | ok f =>
    have hcap : s.capture id tags payload now = s.push id f now := by
      simp only [Session.capture, hf]
    have hafter : after ⟨s, .capture id tags payload now⟩ = (s.push id f now).2 := by
      simp only [after, Session.perform, hcap]
    refine balanced_of_push hafter (fun _ h => by cases h) fun j => ?_
    have hopt : (EncodedFrame.make tags payload).toOption = some f := by rw [hf]; rfl
    simp only [accepted?, reply, Session.perform, hcap]
    cases (s.push id f now).1 <;> simp [hopt]

theorem balanced_take (s : Session) (id : RoutingId) : Balanced ⟨s, .take id⟩ := by
  cases hq : s.queue id with
  | nil =>
    have htake := Session.take_of_queue_nil hq
    have hev : events ⟨s, .take id⟩ = [] := by
      refine Session.eventsSince_eq ?_
      simp only [after, Session.perform, htake]
      rfl
    refine ⟨fun j _ => ?_, fun j hc => ?_, none, ?_, ?_⟩
    · rw [hev]
      simp [accepted?, after, Session.perform, htake, removedFrom]
    · simpa only [after, Session.perform, htake] using hc
    · simp only [reply, Session.perform, htake]
    · rw [hev]; rfl
  | cons f rest =>
    have htake := Session.take_of_queue_cons hq
    have hev : events ⟨s, .take id⟩ = [.taken id f] := by
      refine Session.eventsSince_eq ?_
      simp only [after, Session.perform, htake]
      rfl
    refine ⟨fun j _ => ?_, fun j hc => ?_, some f, ?_, ?_⟩
    · rw [hev]
      simp only [accepted?, after, Session.perform, htake]
      refine (List.append_nil _).trans ((Session.queue_dequeue hq j).trans ?_)
      congr 1
      by_cases hj : id = j <;> simp [removedFrom, Event.removed?, hj]
    · simp only [after, Session.perform, htake]
      exact (Session.isClosed_modifySource_of_eq s id (fun src => { src with queue := rest })
        (fun _ => rfl) j).trans hc
    · simp only [reply, Session.perform, htake]
    · rw [hev]; rfl

/-- The last handle closes its own source, of which nothing is asked; all others stay as they are. -/
theorem balanced_dropHandle (s : Session) (id : RoutingId) : Balanced ⟨s, .dropHandle id⟩ := by
  have hsame : ∀ f : Source → Source, (∀ src, (f src).queue = src.queue) →
      (∀ src, (f src).closed = src.closed) → s.dropHandle id = s.modifySource id f →
      Balanced ⟨s, .dropHandle id⟩ := fun f hq hc heq =>
    balanced_of_relays (l := []) (by rw [after, Session.perform, heq]; exact Relays.modifySource s id hq hc)
      (fun _ h => by cases h) fun _ => rfl
  cases hs : s.source? id with
  | none =>
    have hdrop : s.dropHandle id = s := by simp only [Session.dropHandle, hs]
    exact balanced_of_relays (l := [])
      (by rw [after, Session.perform, hdrop]; exact Relays.elsewhere rfl rfl rfl)
      (fun _ h => by cases h) fun _ => rfl
  | some src =>
    by_cases hn : src.handles > 1
    · refine hsame (fun src => { src with handles := src.handles - 1 }) (fun _ => rfl) (fun _ => rfl) ?_
      simp only [Session.dropHandle, hs, if_pos hn]
    · set t := (s.unregister src.home id).2 with ht
      have hdrop : s.dropHandle id = t.modifySource id fun src => { src.close with handles := 0 } := by
        simp only [Session.dropHandle, hs, if_neg hn]
        rfl
      have hafter : after ⟨s, .dropHandle id⟩
          = t.modifySource id fun src => { src.close with handles := 0 } := by
        rw [after, Session.perform, hdrop]
      have hev : events ⟨s, .dropHandle id⟩ = [] := Session.eventsSince_eq (by rw [hafter]; rfl)
      have hclosed : (after ⟨s, .dropHandle id⟩).isClosed id = true := by
        rw [hafter, Session.isClosed_modifySource, if_pos rfl]
        show (s.source? id).any _ = true
        rw [hs]
        rfl
      have hsrc : ∀ j, id ≠ j → (after ⟨s, .dropHandle id⟩).source? j = s.source? j := fun j hj => by
        rw [hafter, Session.source?_modifySource, if_neg hj]
        rfl
      refine ⟨fun j hopen => ?_, fun j hc => ?_, handsOver_of_not_take (fun _ h => by cases h) ?_ ?_⟩
      · have hj : id ≠ j := by
          rintro rfl
          rw [hclosed] at hopen
          cases hopen
        rw [hev, Session.queue_of_source?_eq (hsrc j hj)]
        exact List.append_nil _
      · by_cases hj : id = j
        · exact hj ▸ hclosed
        · rw [Session.isClosed_of_source?_eq (hsrc j hj)]
          exact hc
      · rw [hev]; exact .nil
      · intro _ o out ho
        rw [hafter, hev]
        exact ho

theorem balanced_of_readsOutput {x : Step} (ha : x.action.readsOutput = true) : x.Balanced := by
  obtain ⟨s, a⟩ := x
  have hsame : (s.perform a).2.journal = s.journal ∧ (s.perform a).2.sources = s.sources := by
    cases a <;> first | exact ⟨rfl, rfl⟩ | cases ha
  have hsrc : ∀ j, (after ⟨s, a⟩).source? j = s.source? j := fun j => by
    rw [Session.source?, after, hsame.2]; rfl
  have hev : events ⟨s, a⟩ = [] := Session.eventsSince_eq hsame.1
  have hacc : ∀ id, accepted? ⟨s, a⟩ id = none := fun id => by
    cases a <;> first | rfl | cases ha
  refine ⟨fun j _ => ?_, fun j hc => ?_, handsOver_of_not_take (fun id h => ?_) ?_ fun hno => ?_⟩
  · rw [hacc j, hev, Session.queue_of_source?_eq (hsrc j)]
    exact List.append_nil _
  · rw [Session.isClosed_of_source?_eq (hsrc j)]
    exact hc
  · simp only at h
    subst h
    cases ha
  · rw [hev]; exact .nil
  · exact absurd hno (by rw [ha]; decide)

theorem balanced (x : Step) : x.Balanced := by
  obtain ⟨s, a⟩ := x
  by_cases hr : a.relays = true
  · obtain ⟨es, hes⟩ := s.relays_perform a hr
    refine balanced_of_relays hes (fun id h => ?_) fun id => ?_
    · simp only at h
      subst h
      cases hr
    · cases a <;> first | rfl | cases hr
  · cases a with
    | push id f now => exact balanced_push s id f now
    | capture id tags payload now => exact balanced_capture s id tags payload now
    | take id => exact balanced_take s id
    | dropHandle id => exact balanced_dropHandle s id
    | collect | subscribe | unsubscribe | receive | dropOutput => exact balanced_of_readsOutput rfl
    | _ => exact absurd rfl hr

end Step

/-! ### Whole runs -/

/-- Frames a source has accepted in some steps, in order. -/
def accepted (id : RoutingId) (steps : List Step) : List EncodedFrame :=
  steps.filterMap (Step.accepted? · id)

/-- Frames that have left the queue of a source in some steps, in order. -/
def removed (id : RoutingId) (steps : List Step) : List EncodedFrame :=
  steps.flatMap fun x => removedFrom id x.events

/-- The source is there and open. -/
def Session.IsLive (s : Session) (id : RoutingId) : Prop :=
  ∃ src, s.source? id = some src ∧ src.closed = false

namespace Session

variable {s : Session} {id : RoutingId}

theorem isClosed_of_isLive (h : s.IsLive id) : s.isClosed id = false := by
  obtain ⟨src, hs, hc⟩ := h
  simp [isClosed, hs, hc]

theorem isClosed_run (actions : List Action) (s : Session) (h : s.isClosed id = true) :
    (s.run actions).isClosed id = true := by
  induction actions generalizing s with
  | nil => exact h
  | cons a rest ih => exact ih _ ((Step.balanced ⟨s, a⟩).closed id h)

theorem queue_run (actions : List Action) (s : Session) (h : (s.run actions).isClosed id = false) :
    s.queue id ++ accepted id (s.steps actions)
      = removed id (s.steps actions) ++ (s.run actions).queue id := by
  induction actions generalizing s with
  | nil => simp [accepted, removed, steps]
  | cons a rest ih =>
    -- a source that is open at the end is open after the first step
    have hopen : (s.perform a).2.isClosed id = false := by
      cases hc : (s.perform a).2.isClosed id with
      | false => rfl
      | true => rw [run_cons, isClosed_run rest _ hc] at h; cases h
    have hstep := (Step.balanced ⟨s, a⟩).queue id hopen
    have hrest := ih _ h
    have hacc : accepted id (s.steps (a :: rest))
        = (Step.accepted? ⟨s, a⟩ id).toList ++ accepted id ((s.perform a).2.steps rest) := by
      simp only [accepted, steps, List.filterMap_cons]
      cases Step.accepted? ⟨s, a⟩ id <;> rfl
    calc s.queue id ++ accepted id (s.steps (a :: rest))
        = (s.queue id ++ (Step.accepted? ⟨s, a⟩ id).toList)
            ++ accepted id ((s.perform a).2.steps rest) := by rw [hacc, List.append_assoc]
      _ = removedFrom id (Step.events ⟨s, a⟩)
            ++ ((s.perform a).2.queue id ++ accepted id ((s.perform a).2.steps rest)) := by
          rw [hstep, List.append_assoc]; rfl
      _ = removedFrom id (Step.events ⟨s, a⟩)
            ++ (removed id ((s.perform a).2.steps rest) ++ (s.run (a :: rest)).queue id) := by
          rw [hrest, run_cons]
      _ = removed id (s.steps (a :: rest)) ++ (s.run (a :: rest)).queue id := by
          rw [← List.append_assoc]; rfl

theorem handsOver_run (actions : List Action) (s : Session) : ∀ x ∈ s.steps actions, x.HandsOver := by
  induction actions generalizing s with
  | nil => simp [steps]
  | cons a rest ih =>
    intro x hx
    rcases List.mem_cons.mp hx with rfl | hx
    · exact (Step.balanced _).handsOver
    · exact ih _ x hx

end Session

/-- **Conservation of frames.**  In every run, for a source that is live in the end, the frames accepted
are those removed, in order of removal, followed by those waiting; and each step hands over what it
removes, to the taker or to one output. -/
theorem frames_conserved (actions : List Action) {id : RoutingId}
    (h : (({} : Session).run actions).IsLive id) :
    accepted id (({} : Session).steps actions)
      = removed id (({} : Session).steps actions) ++ (({} : Session).run actions).queue id ∧
    ∀ x ∈ ({} : Session).steps actions, x.HandsOver := by
  refine ⟨?_, Session.handsOver_run actions {}⟩
  have hq := Session.queue_run actions {} (Session.isClosed_of_isLive h)
  have hempty : ({} : Session).queue id = [] := by
    cases id with
    | mk n => cases n <;> rfl
  rwa [hempty, List.nil_append] at hq

/-- Three frames are pushed; one goes through an encoder, one is taken by hand, one waits. -/
def pushPullTake : List Action :=
  [.addRegistry, .addOutput (.collector #[]), .addSource ⟨1⟩ {},
    .addEncoder (.passthrough (Passthrough.make (.routed ⟨1⟩) .h264 {} none)),
    .call ⟨1⟩ (.init ⟨.h264, 640, 480, 30, []⟩), .call ⟨1⟩ (.connect ⟨⟨1⟩, none⟩),
    .capture ⟨1⟩ { width := 640, height := 480, isKey := true } [0x65] 1,
    .capture ⟨1⟩ { width := 640, height := 480 } [0x41] 2,
    .capture ⟨1⟩ { width := 640, height := 480 } [0x42] 3,
    .call ⟨1⟩ (.pull { picture := Picture.black 2 2, timestamp := ⟨1, false⟩, source := some ⟨1⟩ } [.key]),
    .take ⟨1⟩]

theorem frames_conserved_pushPullTake :
    (({} : Session).run pushPullTake).IsLive ⟨1⟩ ∧
    ((accepted ⟨1⟩ (({} : Session).steps pushPullTake)).length = 3 ∧
      (({} : Session).run pushPullTake).queue ⟨1⟩ ≠ []) ∧
    accepted ⟨1⟩ (({} : Session).steps pushPullTake)
      = removed ⟨1⟩ (({} : Session).steps pushPullTake) ++ (({} : Session).run pushPullTake).queue ⟨1⟩ ∧
    ∀ x ∈ ({} : Session).steps pushPullTake, x.HandsOver := by
  have hlive : (({} : Session).run pushPullTake).IsLive ⟨1⟩ := ⟨_, rfl, rfl⟩
  exact ⟨hlive, ⟨rfl, by decide⟩, frames_conserved pushPullTake hlive⟩

end EncodedFeed
