import EncodedFeed.Proofs.Session.Asking
import EncodedFeed.Proofs.Session.RecodedActions
import EncodedFeed.Session.Groups
import Mathlib.Data.List.Basic

/-!
# Payloads are never looked at

An application works with sources, simulcast groups, encoders, pipelines and outputs, in any order.  If it pushed
other payloads, and was otherwise the same, it would get the same answers, and the same would happen, with the other
payloads in the place of the first ones.  Only the octets that pipelines count are different.
-/

namespace EncodedFeed

/-! ### Groups -/

namespace Recoded

variable {f : Payload → Payload} {s t : Session} (h : Recoded f s t)
include h

theorem addSources (configs : List SourceConfig) (r : Ref .registry) :
    Paired (Recoded f) (s.addSources r configs) (t.addSources r configs) := by
  induction configs generalizing s t with
  | nil => exact ⟨rfl, h⟩
  | cons c rest ih =>
    obtain ⟨hid, hadded⟩ := h.addSource r c
    obtain ⟨hids, hrest⟩ := ih hadded
    exact ⟨congrArg₂ List.cons hid hids, hrest⟩

theorem addGroup (r : Ref .registry) (base : SourceConfig) (resolutions : List Resolution) :
    Paired (Recoded f) (s.addGroup r base resolutions) (t.addGroup r base resolutions) := by
  unfold Session.addGroup
  split
  · exact ⟨rfl, h⟩
  · obtain ⟨hlayers, hadded⟩ := h.addSources (resolutions.map fun x => { base with resolution := x }) r
    exact ⟨congrArg (fun layers => Except.ok (Group.mk base.codec layers)) hlayers, hadded⟩

theorem dropHandles (ids : List RoutingId) :
    Recoded f (ids.foldl Session.dropHandle s) (ids.foldl Session.dropHandle t) := by
  induction ids generalizing s t with
  | nil => exact h
  | cons id rest ih => exact ih (h.dropHandle id)

theorem watchLayers (o : Ref .observer) (layers : List (RoutingId × Nat)) :
    Recoded f (layers.foldl (fun s x => s.watch x.1 (some ⟨o, some x.2⟩)) s)
      (layers.foldl (fun s x => s.watch x.1 (some ⟨o, some x.2⟩)) t) := by
  induction layers generalizing s t with
  | nil => exact h
  | cons x rest ih =>
    refine ih (h.modifySource x.1 ?_)
    exact fun _ => rfl

theorem captureLayer (g : Group) (layer : Nat) (tags : FrameTags) (payload : Octets) (now : Int64) :
    Paired (Recoded f) (s.captureLayer g layer tags payload now)
      (t.captureLayer g layer tags (recodeOctets f payload) now) := by
  unfold Session.captureLayer
  split
  · exact h.capture _ tags payload now
  · exact ⟨rfl, h.warn _⟩

theorem pushLayer (g : Group) (layer : Nat) (x : EncodedFrame) (now : Int64) :
    Paired (Recoded f) (s.pushLayer g layer x now) (t.pushLayer g layer (x.recode f) now) := by
  unfold Session.pushLayer
  split
  · exact h.push _ x now
  · exact ⟨rfl, h.warn _⟩

theorem streams (g : Group) : t.streams g = s.streams g := by
  unfold Session.streams
  refine List.filterMap_congr fun id _ => ?_
  rw [h.source?, Option.map_map]
  rfl

theorem create? (x : Factory) (format : SdpFormat) :
    Paired (Recoded f) (s.create? x format) (t.create? x format) := by
  unfold Session.create?
  rw [h.findByCodec]
  cases x.create? s.findByCodec format with
  | none => exact ⟨rfl, h⟩
  | some e =>
    obtain ⟨hmade, hadded⟩ := h.addEncoder e
    exact ⟨congrArg some hmade, hadded⟩

theorem capabilities? (e : Ref .encoder) : t.capabilities? e = s.capabilities? e := by
  have hencoder : t.encoder? e = s.encoder? e := by
    rw [Session.encoder?, h.encoders]
    rfl
  unfold Session.capabilities?
  simp only [hencoder, h.fallback?]

end Recoded

/-! ### Applications -/

/-- What an application does, or asks. -/
inductive Deed
  | act (a : Action)
  | addGroup (registry : Ref .registry) (base : SourceConfig) (resolutions : List Resolution)
  | dropGroup (g : Group)
  | watchGroup (g : Group) (o : Ref .observer)
  /-- Push a payload with its tags into a layer. -/
  | captureLayer (g : Group) (layer : Nat) (tags : FrameTags) (payload : Octets) (now : Int64)
  /-- Push a frame into a layer. -/
  | pushLayer (g : Group) (layer : Nat) (frame : EncodedFrame) (now : Int64)
  /-- Have a factory make an encoder. -/
  | create (x : Factory) (format : SdpFormat)
  | askLength (source : RoutingId)
  | askStreams (g : Group)
  | askFormats (x : Factory)
  | askServes (x : PassthroughFactory) (name : String)
  | askCodec (registry : Ref .registry) (name : String)
  | askCapabilities (e : Ref .encoder)

/-- What comes back from a deed. -/
inductive Answer
  | reply (r : Reply)
  | done
  | group (r : Except Error Group)
  | accepted (yes : Bool)
  | encoder (e : Option (Ref .encoder))
  | length (n : Nat)
  | streams (xs : List SimulcastStream)
  | formats (xs : List SdpFormat)
  | serves (yes : Bool)
  | source (id : Option RoutingId)
  | capabilities (c : Option Capabilities)

/-- The deed, other payloads being pushed. -/
def Deed.recode (f : Payload → Payload) : Deed → Deed
  | act a => act (a.recode f)
  | captureLayer g layer tags payload now => captureLayer g layer tags (recodeOctets f payload) now
  | pushLayer g layer x now => pushLayer g layer (x.recode f) now
  | d => d

/-- The answer, but for the payloads in it. -/
def Answer.recode (f : Payload → Payload) : Answer → Answer
  | reply r => reply (r.recode f)
  | x => x

namespace Session

/-- Do a deed. -/
def fulfil (s : Session) : Deed → Answer × Session
  | .act a => (.reply (s.perform a).1, (s.perform a).2)
  | .addGroup r base resolutions => (.group (s.addGroup r base resolutions).1, (s.addGroup r base resolutions).2)
  | .dropGroup g => (.done, s.dropGroup g)
  | .watchGroup g o => (.done, s.watchGroup g o)
  | .captureLayer g layer tags payload now =>
    (.accepted (s.captureLayer g layer tags payload now).1, (s.captureLayer g layer tags payload now).2)
  | .pushLayer g layer x now => (.accepted (s.pushLayer g layer x now).1, (s.pushLayer g layer x now).2)
  | .create x format => (.encoder (s.create? x format).1, (s.create? x format).2)
  | .askLength id => (.length (s.queueLength id), s)
  | .askStreams g => (.streams (s.streams g), s)
  | .askFormats x => (.formats (s.formats x), s)
  | .askServes x name => (.serves (s.serves x name), s)
  | .askCodec r name => (.source (s.findByCodec r name), s)
  | .askCapabilities e => (.capabilities (s.capabilities? e), s)

/-- Do deeds one after the other, and keep the answers. -/
def fulfilAll (s : Session) : List Deed → List Answer × Session
  | [] => ([], s)
  | d :: rest => ((s.fulfil d).1 :: ((s.fulfil d).2.fulfilAll rest).1, ((s.fulfil d).2.fulfilAll rest).2)

end Session

namespace Recoded

variable {f : Payload → Payload} {s t : Session}

theorem fulfil (h : Recoded f s t) (d : Deed) :
    (t.fulfil (d.recode f)).1 = (s.fulfil d).1.recode f ∧ Recoded f (s.fulfil d).2 (t.fulfil (d.recode f)).2 := by
  cases d with
  | act a =>
    obtain ⟨hreply, hrest⟩ := h.perform a
    exact ⟨congrArg Answer.reply hreply, hrest⟩
  | addGroup r base resolutions =>
    obtain ⟨hgroup, hrest⟩ := h.addGroup r base resolutions
    exact ⟨congrArg Answer.group hgroup, hrest⟩
  | dropGroup g => exact ⟨rfl, h.dropHandles g.layers⟩
  | watchGroup g o => exact ⟨rfl, h.watchLayers o g.layers.zipIdx⟩
  | captureLayer g layer tags payload now =>
    obtain ⟨hyes, hrest⟩ := h.captureLayer g layer tags payload now
    exact ⟨congrArg Answer.accepted hyes, hrest⟩
  | pushLayer g layer x now =>
    obtain ⟨hyes, hrest⟩ := h.pushLayer g layer x now
    exact ⟨congrArg Answer.accepted hyes, hrest⟩
  | create x format =>
    obtain ⟨hmade, hrest⟩ := h.create? x format
    exact ⟨congrArg Answer.encoder hmade, hrest⟩
  | askLength id => exact ⟨congrArg Answer.length (h.queueLength id), h⟩
  | askStreams g => exact ⟨congrArg Answer.streams (h.streams g), h⟩
  | askFormats x => exact ⟨congrArg (fun served => Answer.formats (x.formats served)) h.codecs, h⟩
  | askServes x name => exact ⟨congrArg (fun find => Answer.serves (x.serves find name)) h.findByCodec, h⟩
  | askCodec r name =>
    have hfound : t.findByCodec r name = s.findByCodec r name := by rw [h.findByCodec]
    exact ⟨congrArg Answer.source hfound, h⟩
  | askCapabilities e => exact ⟨congrArg Answer.capabilities (h.capabilities? e), h⟩

theorem fulfilAll (h : Recoded f s t) (deeds : List Deed) :
    (t.fulfilAll (deeds.map (Deed.recode f))).1 = (s.fulfilAll deeds).1.map (Answer.recode f) ∧
    Recoded f (s.fulfilAll deeds).2 (t.fulfilAll (deeds.map (Deed.recode f))).2 := by
  induction deeds generalizing s t with
  | nil => exact ⟨rfl, h⟩
  | cons d rest ih =>
    obtain ⟨hanswer, hrest⟩ := h.fulfil d
    obtain ⟨hanswers, hlast⟩ := ih hrest
    exact ⟨congrArg₂ List.cons hanswer hanswers, hlast⟩

/-! ### What can be read off -/

theorem warnings (h : Recoded f s t) : t.warnings = s.warnings := by
  have hwarning : ∀ e : Event, (e.recode f).warning? = e.warning? := by
    intro e
    cases e <;> rfl
  unfold Session.warnings
  rw [h.journal, List.filterMap_map]
  exact congrArg List.reverse (List.filterMap_congr fun e _ => hwarning e)

theorem told (h : Recoded f s t) (o : Ref .observer) : t.told o = s.told o := by
  unfold Session.told
  rw [h.observers]

theorem received (h : Recoded f s t) (o : Ref .output) :
    t.received o = (s.received o).map fun x => (x.1.recode f, x.2) := by
  have hoffered : ∀ e : Event,
      (e.recode f).offered? o = (e.offered? o).map fun x => (x.1.recode f, x.2) := by
    intro e
    cases e with
    | presented o' i r =>
      show (if o' = o then some (i.recode f, r) else none) = (if o' = o then some (i, r) else none).map _
      split <;> rfl
    | _ => rfl
  unfold Session.received
  rw [h.journal, ← List.map_reverse, List.filterMap_map, List.map_filterMap]
  exact List.filterMap_congr fun e _ => hoffered e

end Recoded

/-! ### Only payloads are presented -/

theorem HandedOn.data_ne {es : List Event} (h : HandedOn es) {o : Ref .output} {i : EmittedImage}
    {r : Option SinkError} (hi : .presented o i r ∈ es) : i.image.data ≠ [] := by
  induction h with
  | nil => cases hi
  | pushed _ ih | asked _ ih | warned _ ih => exact ih (by simpa using hi)
  | @passed id x o' i' r' es hcarries _ ih =>
    simp only [List.mem_cons, reduceCtorEq, false_or, Event.presented.injEq] at hi
    rcases hi with ⟨-, rfl, -⟩ | hi
    · rw [hcarries.data]
      exact x.payload_ne
    · exact ih hi

/-- All images presented so far have payloads. -/
def Session.Filled (s : Session) : Prop := ∀ o i r, .presented o i r ∈ s.journal → i.image.data ≠ []

namespace Session.Filled

variable {s t : Session} (h : s.Filled)
include h

theorem relays {es : List Event} (hes : Relays es s t) : t.Filled := by
  intro o i r hi
  rw [hes.journal, List.mem_append, List.mem_reverse] at hi
  rcases hi with hi | hi
  · exact hes.handedOn.data_ne hi
  · exact h o i r hi

theorem quiet (hj : t.journal = s.journal) : t.Filled := by
  unfold Filled
  rw [hj]
  exact h

theorem pushed (id : RoutingId) (x : EncodedFrame) : (s.note (.pushed id x)).Filled :=
  fun o i r hi => h o i r (by simpa [note] using hi)

theorem warn (w : Warning) : (s.warn w).Filled := h.relays (.warn s w)

theorem push (id : RoutingId) (x : EncodedFrame) (now : Int64) : (s.push id x now).2.Filled := by
  rcases s.push_cases id x now with hno | ⟨-, -, es, hes⟩
  · rw [hno]
    exact h
  · have hentered : (s.modifySource id fun src => src.enqueue x).Filled := h.quiet rfl
    exact (hentered.pushed id x).relays hes

theorem capture (id : RoutingId) (tags : FrameTags) (payload : Octets) (now : Int64) :
    (s.capture id tags payload now).2.Filled := by
  unfold Session.capture
  split
  · exact h.warn _
  · exact h.push id _ now

theorem take (id : RoutingId) : (s.take id).2.Filled := by
  unfold Session.take
  split
  · exact h
  · exact fun o i r hi => h o i r (by simpa [note, modifySource] using hi)

theorem dropHandle (id : RoutingId) : (s.dropHandle id).Filled := by
  unfold Session.dropHandle
  split
  · exact h
  · split
    · exact h.quiet rfl
    · exact h.quiet rfl

theorem perform (a : Action) : (s.perform a).2.Filled := by
  by_cases hrelays : a.relays = true
  · obtain ⟨es, hes⟩ := s.relays_perform a hrelays
    exact h.relays hes
  · cases a with
    | capture id tags payload now => exact h.capture id tags payload now
    | push id x now => exact h.push id x now
    | take id => exact h.take id
    | dropHandle id => exact h.dropHandle id
    | collect | subscribe | unsubscribe | receive | dropOutput => exact h.quiet rfl
    | _ => exact absurd rfl hrelays

theorem addSources (configs : List SourceConfig) (r : Ref .registry) : (s.addSources r configs).2.Filled := by
  induction configs generalizing s with
  | nil => exact h
  | cons c rest ih => exact ih (h.perform (.addSource r c))

theorem dropHandles (ids : List RoutingId) : (ids.foldl Session.dropHandle s).Filled := by
  induction ids generalizing s with
  | nil => exact h
  | cons id rest ih => exact ih (h.dropHandle id)

theorem watchLayers (o : Ref .observer) (layers : List (RoutingId × Nat)) :
    (layers.foldl (fun s x => s.watch x.1 (some ⟨o, some x.2⟩)) s).Filled := by
  induction layers generalizing s with
  | nil => exact h
  | cons x rest ih => exact ih (h.quiet rfl)

theorem fulfil (d : Deed) : (s.fulfil d).2.Filled := by
  cases d with
  | act a => exact h.perform a
  | addGroup r base resolutions =>
    show (s.addGroup r base resolutions).2.Filled
    unfold Session.addGroup
    split
    · exact h
    · exact h.addSources _ r
  | dropGroup g => exact h.dropHandles g.layers
  | watchGroup g o => exact h.watchLayers o g.layers.zipIdx
  | captureLayer g layer tags payload now =>
    show (s.captureLayer g layer tags payload now).2.Filled
    unfold Session.captureLayer
    split
    · exact h.capture _ tags payload now
    · exact h.warn _
  | pushLayer g layer x now =>
    show (s.pushLayer g layer x now).2.Filled
    unfold Session.pushLayer
    split
    · exact h.push _ x now
    · exact h.warn _
  | create x format =>
    show (s.create? x format).2.Filled
    unfold Session.create?
    split
    · exact h
    · exact h.quiet rfl
  | _ => exact h

theorem fulfilAll (deeds : List Deed) : (s.fulfilAll deeds).2.Filled := by
  induction deeds generalizing s with
  | nil => exact h
  | cons d rest ih => exact ih (h.fulfil d)

end Session.Filled

/-! ### The whole of it -/

namespace Session

/-- The payloads an output was presented with, in order. -/
def payloads (s : Session) (o : Ref .output) : List Octets := (s.received o).map fun x => x.1.image.data

theorem Filled.payloads_ne {s : Session} (h : s.Filled) {o : Ref .output} {b : Octets} (hb : b ∈ s.payloads o) :
    b ≠ [] := by
  obtain ⟨x, hx, rfl⟩ := List.mem_map.mp hb
  obtain ⟨e, he, heq⟩ := List.mem_filterMap.mp hx
  cases e with
  | presented o' i r =>
    by_cases ho : o' = o
    · rw [Event.offered?, if_pos ho, Option.some.injEq] at heq
      subst heq
      exact h o' i r (List.mem_reverse.mp he)
    · rw [Event.offered?, if_neg ho] at heq
      cases heq
  | _ => cases heq

theorem Filled.payloads_eq_map {s : Session} (h : s.Filled) (o : Ref .output) :
    ∃ ps : List Payload, s.payloads o = ps.map Subtype.val :=
  ⟨(s.payloads o).attachWith (fun b => b ≠ []) fun _ hb => h.payloads_ne hb,
    (List.attachWith_map_subtype_val ..).symm⟩

end Session

theorem Recoded.payloads {f : Payload → Payload} {s t : Session} (h : Recoded f s t) (o : Ref .output) :
    t.payloads o = (s.payloads o).map (recodeOctets f) := by
  unfold Session.payloads
  rw [h.received, List.map_map, List.map_map]
  rfl

/-- **Payloads are never looked at.**  Whatever an application does, had it put every payload through `f` before
pushing it, it would have had the same answers, but with the payloads in them put through `f`.  The same would have
happened: the same warnings, the same requests told to observers, as many frames in each queue, the same counts of
each pipeline but for octets, and at each output the same images with the same verdicts, but for their payloads,
each of which is what `f` makes of the one before.

An output that judges by position stands for any output that does not look at payloads, as what such an output
answers in one run it also answers in the other. -/
theorem payloads_never_inspected (f : Payload → Payload) (deeds : List Deed) :
    let (answers, s) := ({} : Session).fulfilAll deeds
    let (answers', t) := ({} : Session).fulfilAll (deeds.map (Deed.recode f))
    answers' = answers.map (Answer.recode f) ∧ Recoded f s t ∧ t.warnings = s.warnings ∧
    (∀ o, t.told o = s.told o) ∧ (∀ id, t.queueLength id = s.queueLength id) ∧
    (∀ p, (t.pipeline? p).map Pipeline.unsized = (s.pipeline? p).map Pipeline.unsized) ∧
    (∀ o, t.received o = (s.received o).map fun x => (x.1.recode f, x.2)) ∧
    ∀ o, ∃ ps : List Payload, s.payloads o = ps.map Subtype.val ∧ t.payloads o = ps.map fun p => (f p).1 := by
  obtain ⟨hanswers, hend⟩ := Recoded.empty.fulfilAll (f := f) deeds
  have hfilled : (({} : Session).fulfilAll deeds).2.Filled :=
    Session.Filled.fulfilAll (fun _ _ _ hi => by cases hi) deeds
  refine ⟨hanswers, hend, hend.warnings, hend.told, hend.queueLength, hend.pipeline?, hend.received, fun o => ?_⟩
  obtain ⟨ps, hps⟩ := hfilled.payloads_eq_map o
  refine ⟨ps, hps, ?_⟩
  rw [hend.payloads, hps, List.map_map]
  exact List.map_congr_left fun p _ => recodeOctets_val f p

/-- Each payload twice over. -/
def doubled (p : Payload) : Payload := ⟨p.1 ++ p.1, fun h => p.2 (List.append_eq_nil_iff.mp h).1⟩

/-- A group of one layer, and a pipeline that passes on two of the three payloads pushed into it. -/
def layerAtWork : List Deed :=
  [.act .addRegistry, .act (.addOutput (.collector #[])), .addGroup ⟨1⟩ {} [⟨640, 480⟩],
    .create (.passthrough { binding := .source ⟨1⟩ .h264, index := some 0 }) (.forCodec .h264 .nonInterleaved),
    .act (.addPipeline ⟨1⟩ ⟨.h264, 640, 480, 30, []⟩ ⟨1⟩),
    .captureLayer ⟨.h264, [⟨1⟩]⟩ 0 { width := 640, height := 480, isKey := true } [0x65, 0x88] 1,
    .act (.attach ⟨1⟩ ⟨1⟩),
    .captureLayer ⟨.h264, [⟨1⟩]⟩ 0 { width := 640, height := 480 } [0x41] 2,
    .captureLayer ⟨.h264, [⟨1⟩]⟩ 0 { width := 640, height := 480 } [0x42] 3]

example : (({} : Session).fulfilAll layerAtWork).2.payloads ⟨1⟩ = [[0x65, 0x88], [0x41]] ∧
    (({} : Session).fulfilAll (layerAtWork.map (Deed.recode doubled))).2.payloads ⟨1⟩
      = [[0x65, 0x88, 0x65, 0x88], [0x41, 0x41]] := by decide +kernel

end EncodedFeed
