import EncodedFeed.Proofs.Encoder.Unseen
import EncodedFeed.Proofs.Table
import Mathlib.Tactic.Set

/-!
# Sessions with other payloads

Payloads are recoded by any map of non-empty octet strings: in the frames that wait, in the images that outputs
keep, and in what has been noted.  A session is `Recoded` from another if it is the same but for that and for the
octets its pipelines have counted, which do not follow from the recoded payloads that are still there.  Nobody looks
at a payload, so whatever is done to both gives two such sessions again: here elementary changes, pulls and calls.
-/

namespace EncodedFeed

/-- What frames carry. -/
abbrev Payload := { b : Octets // b ≠ [] }

/-! ### Recoding -/

section

variable (f : Payload → Payload)

/-- An octet string recoded; an empty one is no payload. -/
def recodeOctets (b : Octets) : Octets := if h : b = [] then [] else (f ⟨b, h⟩).1

theorem recodeOctets_eq_nil {b : Octets} : recodeOctets f b = [] ↔ b = [] := by
  unfold recodeOctets
  split
  · next h => exact ⟨fun _ => h, fun _ => rfl⟩
  · next h => exact ⟨fun heq => absurd heq (f ⟨b, h⟩).2, fun heq => absurd heq h⟩

/-- A payload is recoded by the map itself. -/
theorem recodeOctets_val (p : Payload) : recodeOctets f p.1 = (f p).1 := dif_neg p.2

def EncodedFrame.recode (x : EncodedFrame) : EncodedFrame :=
  { x with
    payload := recodeOctets f x.payload
    payload_ne := fun h => x.payload_ne ((recodeOctets_eq_nil f).mp h) }

theorem EncodedFrame.make_recode (tags : FrameTags) (payload : Octets) :
    EncodedFrame.make tags (recodeOctets f payload) = (EncodedFrame.make tags payload).map (EncodedFrame.recode f) := by
  unfold make
  by_cases h : payload = []
  · rw [dif_pos ((recodeOctets_eq_nil f).mpr h), dif_pos h]
    rfl
  · rw [dif_neg fun heq => h ((recodeOctets_eq_nil f).mp heq), dif_neg h]
    rfl

def EmittedImage.recode (i : EmittedImage) : EmittedImage :=
  { i with image := { i.image with data := recodeOctets f i.image.data } }

def Source.recode (x : Source) : Source := { x with queue := x.queue.map (EncodedFrame.recode f) }

def Channel.recode (c : Channel) : Channel := { c with sent := c.sent.map (EmittedImage.recode f) }

/-- What an output keeps is recoded; what it refuses does not depend on payloads. -/
def Output.recode : Output → Output
  | collector images => collector (images.map (EmittedImage.recode f))
  | channel c => channel (c.recode f)
  | guarded verdict seen => guarded verdict seen

def OutputSlot.recode (x : OutputSlot) : OutputSlot := { x with output := x.output.recode f }

def Event.recode : Event → Event
  | pushed id x => pushed id (x.recode f)
  | taken id x => taken id (x.recode f)
  | presented o i r => presented o (i.recode f) r
  | e => e

end

/-- The pipeline, but for the octets it has counted. -/
def Pipeline.unsized (x : Pipeline) : Pipeline := { x with stats := { x.stats with bytesEmitted := 0 } }

/-- The second session is the first one with payloads recoded. -/
structure Recoded (f : Payload → Payload) (s t : Session) : Prop where
  sources : t.sources = s.sources.map (Source.recode f)
  outputs : t.outputs = s.outputs.map (OutputSlot.recode f)
  journal : t.journal = s.journal.map (Event.recode f)
  pipelines : t.pipelines.map Pipeline.unsized = s.pipelines.map Pipeline.unsized
  registries : t.registries = s.registries
  encoders : t.encoders = s.encoders
  fallbacks : t.fallbacks = s.fallbacks
  recorders : t.recorders = s.recorders
  observers : t.observers = s.observers
  recordings : t.recordings = s.recordings
  files : t.files = s.files

namespace Recoded

variable {f : Payload → Payload}

theorem empty : Recoded f {} {} := by
  have hempty : ∀ {α β : Type} (g : α → β), ({} : Table α).map g = {} := by
    intro α β g
    simp [Table.map]
  exact ⟨(hempty _).symm, (hempty _).symm, rfl, rfl, rfl, rfl, rfl, rfl, rfl, rfl, rfl⟩

variable {s t : Session} (h : Recoded f s t)
include h

/-! ### Looking up -/

theorem source? (id : RoutingId) : t.source? id = (s.source? id).map (Source.recode f) := by
  rw [Session.source?, h.sources, Table.get?_map]
  rfl

theorem output? (o : Ref .output) : t.output? o = (s.output? o).map (Output.recode f) := by
  rw [Session.output?, h.outputs, Table.get?_map, Session.output?, Option.map_map, Option.map_map]
  rfl

theorem pipeline? (p : Ref .pipeline) :
    (t.pipeline? p).map Pipeline.unsized = (s.pipeline? p).map Pipeline.unsized := by
  have hpipelines := congrArg (fun x => x.get? p.number) h.pipelines
  rw [Table.get?_map, Table.get?_map] at hpipelines
  exact hpipelines

/-- A pipeline is there in both sessions or in neither. -/
theorem pipeline?_cases (p : Ref .pipeline) :
    s.pipeline? p = none ∧ t.pipeline? p = none ∨
    ∃ x y, s.pipeline? p = some x ∧ t.pipeline? p = some y ∧ y.encoder = x.encoder ∧ y.nextType = x.nextType ∧
      y.attachments = x.attachments := by
  have hp := h.pipeline? p
  cases hs : s.pipeline? p with
  | none =>
    rw [hs] at hp
    exact .inl ⟨rfl, Option.map_eq_none_iff.mp hp⟩
  | some x =>
    rw [hs] at hp
    obtain ⟨y, hy, hxy⟩ := Option.map_eq_some_iff.mp hp
    have hencoder := congrArg Pipeline.encoder hxy
    have htype := congrArg Pipeline.nextType hxy
    have hattachments := congrArg Pipeline.attachments hxy
    exact .inr ⟨x, y, rfl, hy, hencoder, htype, hattachments⟩

theorem registry (r : Ref .registry) : t.registry r = s.registry r := by
  rw [Session.registry, h.registries]
  rfl

theorem fallback? (x : Ref .fallback) : t.fallback? x = s.fallback? x := by
  rw [Session.fallback?, h.fallbacks]
  rfl

theorem queueLength (id : RoutingId) : t.queueLength id = s.queueLength id := by
  unfold Session.queueLength
  rw [h.source?, Option.map_map]
  refine congrArg (fun x : Option Nat => x.getD 0) (Option.map_congr fun src _ => ?_)
  exact List.length_map ..

/-! ### Changing one thing -/

theorem note (e : Event) : Recoded f (s.note e) (t.note (e.recode f)) :=
  { h with journal := congrArg (e.recode f :: ·) h.journal }

theorem warn (w : Warning) : Recoded f (s.warn w) (t.warn w) := h.note (.warned w)

theorem modifySource (id : RoutingId) {g g' : Source → Source} (hg : ∀ x, (g x).recode f = g' (x.recode f)) :
    Recoded f (s.modifySource id g) (t.modifySource id g') := by
  refine { h with sources := ?_ }
  show t.sources.modify id.number g' = (s.sources.modify id.number g).map (Source.recode f)
  rw [h.sources, s.sources.map_modify _ _ hg]

/-- A change that has nothing to do with the queue. -/
theorem modifyPump (id : RoutingId) (g : Pump → Pump) : Recoded f (s.modifyPump id g) (t.modifyPump id g) := by
  refine h.modifySource id ?_
  exact fun _ => rfl

theorem modifyOutput (o : Ref .output) {g g' : Output → Output} (hg : ∀ x, (g x).recode f = g' (x.recode f)) :
    Recoded f (s.modifyOutput o g) (t.modifyOutput o g') := by
  refine { h with outputs := ?_ }
  show t.outputs.modify o.number _ = (s.outputs.modify o.number _).map (OutputSlot.recode f)
  rw [h.outputs]
  symm
  apply s.outputs.map_modify
  intro x
  show OutputSlot.mk ((g x.output).recode f) x.held = _
  rw [hg]
  rfl

/-- A change that does not depend on the octets counted. -/
theorem modifyPipeline (p : Ref .pipeline) {g g' k : Pipeline → Pipeline} (hg : ∀ x, (g x).unsized = k x.unsized)
    (hg' : ∀ x, (g' x).unsized = k x.unsized) : Recoded f (s.modifyPipeline p g) (t.modifyPipeline p g') := by
  refine { h with pipelines := ?_ }
  show (t.pipelines.modify p.number g').map _ = (s.pipelines.modify p.number g).map _
  rw [t.pipelines.map_modify _ _ hg', s.pipelines.map_modify _ _ hg, h.pipelines]

/-- A change that leaves the octets counted as they are. -/
theorem adjust (p : Ref .pipeline) {g : Pipeline → Pipeline} (hg : ∀ x, (g x).unsized = g x.unsized) :
    Recoded f (s.modifyPipeline p g) (t.modifyPipeline p g) := h.modifyPipeline p hg hg

theorem setEncoder (e : Ref .encoder) (x : Encoder) : Recoded f (s.setEncoder e x) (t.setEncoder e x) :=
  { h with encoders := congrArg (fun xs => xs.modify e.number fun _ => x) h.encoders }

theorem dropEncoder (e : Ref .encoder) : Recoded f (s.dropEncoder e) (t.dropEncoder e) :=
  { h with encoders := congrArg (fun xs => xs.erase e.number) h.encoders }

theorem modifyRegistry (r : Ref .registry) (g : Registry → Registry) :
    Recoded f (s.modifyRegistry r g) (t.modifyRegistry r g) :=
  { h with registries := congrArg (fun xs => xs.modify r.number g) h.registries }

theorem modifyFallback (x : Ref .fallback) (g : Fallback → Fallback) :
    Recoded f { s with fallbacks := s.fallbacks.modify x.number g }
      { t with fallbacks := t.fallbacks.modify x.number g } :=
  { h with fallbacks := congrArg (fun xs => xs.modify x.number g) h.fallbacks }

theorem tell (w : Watcher) :
    Recoded f { s with observers := s.observers.modify w.observer.number fun x => x.push w.layer }
      { t with observers := t.observers.modify w.observer.number fun x => x.push w.layer } :=
  { h with
    observers := congrArg (fun xs : Table (Array (Option Nat)) => xs.modify w.observer.number fun x => x.push w.layer)
      h.observers }

/-! ### Pulls -/

theorem requestKeyframe (id : RoutingId) : Recoded f (s.requestKeyframe id) (t.requestKeyframe id) := by
  have hasked : Recoded f ((s.modifySource id Source.requestKeyframe).note (.asked id))
      ((t.modifySource id Source.requestKeyframe).note (.asked id)) := by
    refine Recoded.note (h.modifySource id ?_) (.asked id)
    exact fun _ => rfl
  have hwatcher : ∀ x : Option Source, (x.map (Source.recode f)).bind Source.watcher = x.bind Source.watcher := by
    intro x
    cases x <;> rfl
  unfold Session.requestKeyframe
  dsimp only
  rw [hasked.source?, hwatcher]
  split
  · exact hasked
  · next w _ => exact hasked.tell w

theorem take (id : RoutingId) :
    (t.take id).1 = (s.take id).1.map (EncodedFrame.recode f) ∧ Recoded f (s.take id).2 (t.take id).2 := by
  have htake : ∀ x : Source, (x.recode f).take = (x.take.1.map (EncodedFrame.recode f), x.take.2.recode f) := by
    intro x
    unfold Source.take
    cases hq : x.queue <;> simp [Source.recode, hq]
  have hfirst : (t.source? id).bind (fun x => x.take.1)
      = ((s.source? id).bind fun x => x.take.1).map (EncodedFrame.recode f) := by
    rw [h.source?]
    cases s.source? id with
    | none => rfl
    | some x => exact congrArg Prod.fst (htake x)
  unfold Session.take
  rw [hfirst]
  cases (s.source? id).bind fun x => x.take.1 with
  | none => exact ⟨rfl, h⟩
  | some x =>
    refine ⟨rfl, Recoded.note (h.modifySource id fun x => ?_) (.taken id x)⟩
    rw [htake]

omit h in
theorem offer_recode (x : Output) (i : EmittedImage) :
    (x.recode f).offer (i.recode f) = ((x.offer i).1, (x.offer i).2.recode f) := by
  cases x with
  | collector images => simp [Output.offer, Output.recode]
  | channel c =>
    have hsend : (c.recode f).send (i.recode f) = (c.send i).recode f := by
      unfold Channel.send
      have hcursors : (c.recode f).cursors = c.cursors := rfl
      rw [hcursors]
      split
      · rfl
      · simp [Channel.recode]
    simp [Output.offer, Output.recode, hsend]
  | guarded verdict seen => rfl

/-- An image is presented with its payload recoded; it is counted all the same, but for its octets. -/
theorem present (d : Destination) (i : EmittedImage) :
    Paired (Recoded f) (s.present d i) (t.present d (i.recode f)) := by
  have hrefusal : (t.output? d.output).bind (fun x => (x.offer (i.recode f)).1)
      = (s.output? d.output).bind fun x => (x.offer i).1 := by
    rw [h.output?]
    cases s.output? d.output with
    | none => rfl
    | some x =>
      show ((x.recode f).offer (i.recode f)).1 = (x.offer i).1
      rw [offer_recode]
  have hoffered : Recoded f (s.modifyOutput d.output fun x => (x.offer i).2)
      (t.modifyOutput d.output fun x => (x.offer (i.recode f)).2) :=
    h.modifyOutput d.output fun x => by rw [offer_recode]
  have hnoted := fun refusal => hoffered.note (.presented d.output i refusal)
  unfold Session.present
  dsimp only
  rw [hrefusal]
  cases (s.output? d.output).bind fun x => (x.offer i).1 with
  | some e => exact ⟨rfl, hnoted (some e)⟩
  | none =>
    cases d.counter with
    | none => exact ⟨rfl, hnoted none⟩
    | some p =>
      refine ⟨rfl, (hnoted none).modifyPipeline p (k := fun x => { x with stats := { x.stats with
        framesEmitted := x.stats.framesEmitted + 1
        keyframesEmitted := x.stats.keyframesEmitted + if i.image.frameType = .key then 1 else 0 } }) ?_ ?_⟩
      · exact fun _ => rfl
      · exact fun _ => rfl

theorem passOn (p : Passthrough) (d : Destination) (id : RoutingId) (raw : RawFrame) :
    Paired (Paired (Recoded f)) (s.passOn p d id raw) (t.passOn p d id raw) := by
  have htake := h.take id
  unfold Session.passOn
  cases hs : s.take id with
  | mk x s' =>
    cases ht : t.take id with
    | mk y t' =>
      rw [hs, ht] at htake
      obtain ⟨rfl, hrest⟩ : y = x.map (EncodedFrame.recode f) ∧ Recoded f s' t' := htake
      cases x with
      | none => exact ⟨rfl, rfl, hrest⟩
      | some x =>
        have hpresent := hrest.present d (p.image x raw)
        have himage : p.image (x.recode f) raw = (p.image x raw).recode f := rfl
        dsimp only [Option.map_some]
        rw [himage]
        cases hs' : s'.present d (p.image x raw) with
        | mk refusal u =>
          cases ht' : t'.present d ((p.image x raw).recode f) with
          | mk refusal' v =>
            rw [hs', ht'] at hpresent
            obtain ⟨rfl, hlast⟩ : refusal' = refusal ∧ Recoded f u v := hpresent
            cases refusal' with
            | none => exact ⟨rfl, rfl, hlast⟩
            | some e => exact ⟨rfl, rfl, hlast.warn _⟩

theorem pull (p : Passthrough) (raw : RawFrame) (types : List FrameType) :
    Paired (Paired (Recoded f)) (s.pull p raw types) (t.pull p raw types) := by
  have hresolve : t.resolve p.binding raw = s.resolve p.binding raw := by
    cases p.binding with
    | bound id => rfl
    | routed r =>
      show raw.source.bind (t.registry r).find? = raw.source.bind (s.registry r).find?
      rw [h.registry]
  unfold Session.pull
  split
  · exact ⟨rfl, rfl, h⟩
  · exact ⟨rfl, rfl, h⟩
  · rw [hresolve]
    split
    · exact ⟨rfl, rfl, h.warn _⟩
    · next id _ =>
      have hasked : Recoded f (if types.contains .key then s.requestKeyframe id else s)
          (if types.contains .key then t.requestKeyframe id else t) := by
        split
        · exact h.requestKeyframe id
        · exact h
      dsimp only
      split
      · exact hasked.passOn p _ id raw
      · exact ⟨rfl, rfl, hasked⟩

/-! ### Calls -/

theorem callFallback (x : Ref .fallback) (c : Call) :
    Paired (Recoded f) (s.callFallback x c) (t.callFallback x c) := by
  refine ⟨?_, h.modifyFallback x fun y => y.record c⟩
  unfold Session.callFallback
  rw [h.fallback?]

omit h in
theorem concordant : Concordant (Recoded f) id where
  pull h p raw types := h.pull p raw types
  registry h r := h.registry r
  able h x := by
    unfold Session.canFallBack
    rw [h.fallback?]
  ask h x format := h.modifyFallback x fun y => y.ask format
  callFallback h x c := by
    rw [c.retyped_id]
    exact h.callFallback x c

/-- **No call sees a payload.** -/
theorem call (e : Ref .encoder) (c : Call) : Paired (Recoded f) (s.call e c) (t.call e c) := by
  have hencoder : t.encoder? e = s.encoder? e := by
    rw [Session.encoder?, h.encoders]
    rfl
  unfold Session.call
  rw [hencoder]
  cases s.encoder? e with
  | none => exact ⟨rfl, h⟩
  | some x =>
    cases x with
    | passthrough p =>
      have hcalled := concordant.callPassthrough h p c
      rw [c.retyped_id] at hcalled
      obtain ⟨result, q, s', t', hs', ht', hrest⟩ := hcalled.split
      dsimp only
      rw [hs', ht']
      exact ⟨rfl, hrest.setEncoder e _⟩
    | lazy l =>
      have hcalled := concordant.callLazy h l c
      rw [c.retyped_id] at hcalled
      obtain ⟨result, q, s', t', hs', ht', hrest⟩ := hcalled.split
      dsimp only
      rw [hs', ht']
      exact ⟨rfl, hrest.setEncoder e _⟩

end Recoded

end EncodedFeed
