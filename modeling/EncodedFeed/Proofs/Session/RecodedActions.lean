import EncodedFeed.Proofs.Session.Recoding
import EncodedFeed.Proofs.Session.Run

/-!
# Actions with other payloads

Carried out in a session and in one `Recoded` from it, an action gives the same reply, and two such sessions again,
if it pushes a payload here and the recoded one there.
-/

namespace EncodedFeed

/-! ### Frames on their way -/

namespace Recoded

variable {f : Payload → Payload} {s t : Session} (h : Recoded f s t)
include h

theorem tally (p : Ref .pipeline) (r : Except Error Outcome) : Recoded f (s.tally p r) (t.tally p r) := by
  unfold Session.tally
  split
  · exact h
  · refine h.adjust p ?_
    exact fun _ => rfl
  · refine (h.adjust p ?_).warn _
    exact fun _ => rfl

/-- A pipeline counts a pull. -/
theorem pulled (p : Ref .pipeline) :
    Recoded f
      (s.modifyPipeline p fun x =>
        { x with keyframePending := false, stats := { x.stats with pulls := x.stats.pulls + 1 } })
      (t.modifyPipeline p fun x =>
        { x with keyframePending := false, stats := { x.stats with pulls := x.stats.pulls + 1 } }) := by
  refine h.adjust p ?_
  exact fun _ => rfl

theorem feed (p : Ref .pipeline) (raw : RawFrame) : Recoded f (s.feed p raw) (t.feed p raw) := by
  unfold Session.feed
  rcases h.pipeline?_cases p with ⟨hs, ht⟩ | ⟨x, y, hs, ht, hencoder, htype, -⟩
  · rw [hs, ht]
    exact h
  · rw [hs, ht]
    dsimp only
    rw [hencoder, htype]
    obtain ⟨hresult, hcalled⟩ := (h.pulled p).call x.encoder
      (.pull { raw with rtp := raw.timestamp.map rtpOfMicros } [x.nextType])
    rw [hresult]
    exact hcalled.tally p _

theorem deliver (raw : RawFrame) (tap : Tap) : Recoded f (s.deliver raw tap) (t.deliver raw tap) := by
  cases tap with
  | recorder r =>
    exact { h with
      recorders := congrArg (fun xs : Table (Array RawFrame) => xs.modify r.number fun x => x.push raw) h.recorders }
  | pipeline p => exact h.feed p raw

theorem deliverAll (raw : RawFrame) (taps : List Tap) : Recoded f (s.deliverAll raw taps) (t.deliverAll raw taps) := by
  induction taps generalizing s t with
  | nil => exact h
  | cons tap rest ih => exact ih (h.deliver raw tap)

theorem pushRaw (id : RoutingId) (picture : Picture) (stamp : Stamped Int64) :
    Recoded f (s.pushRaw id picture stamp) (t.pushRaw id picture stamp) := by
  unfold Session.pushRaw
  rw [h.source?]
  cases s.source? id with
  | none => exact h
  | some src =>
    have hpump : (src.recode f).pump = src.pump := rfl
    dsimp only [Option.map_some]
    rw [hpump]
    split
    · exact h
    · exact h.deliverAll _ _

theorem emit (id : RoutingId) (capture now : Int64) :
    Paired (Recoded f) (s.emit id capture now) (t.emit id capture now) := by
  unfold Session.emit
  rw [h.source?]
  cases s.source? id with
  | none => exact ⟨rfl, h⟩
  | some src => exact ⟨rfl, (h.modifyPump id fun _ => (src.pump.stamp capture now).2).pushRaw id _ _⟩

theorem checkDepth (id : RoutingId) : Recoded f (s.checkDepth id) (t.checkDepth id) := by
  have hdepth : ∀ x : Source, (x.recode f).isPastDepth = x.isPastDepth := by
    intro x
    simp [Source.isPastDepth, Source.recode]
  unfold Session.checkDepth
  rw [h.source?]
  cases s.source? id with
  | none => exact h
  | some src =>
    dsimp only [Option.map_some]
    rw [hdepth]
    split
    · exact h.warn _
    · exact h

theorem push (id : RoutingId) (x : EncodedFrame) (now : Int64) :
    Paired (Recoded f) (s.push id x now) (t.push id (x.recode f) now) := by
  have hentered : Recoded f (s.modifySource id fun src => src.enqueue x)
      (t.modifySource id fun src => src.enqueue (x.recode f)) :=
    h.modifySource id fun src => by simp [Source.recode, Source.enqueue]
  unfold Session.push
  rw [h.source?]
  cases s.source? id with
  | none => exact ⟨rfl, h⟩
  | some src =>
    have hclosed : (src.recode f).closed = src.closed := rfl
    dsimp only [Option.map_some]
    rw [hclosed]
    split
    · exact ⟨rfl, h⟩
    · exact ⟨rfl, (((hentered.note (.pushed id x)).checkDepth id).emit id x.captureUs now).2⟩

theorem capture (id : RoutingId) (tags : FrameTags) (payload : Octets) (now : Int64) :
    Paired (Recoded f) (s.capture id tags payload now) (t.capture id tags (recodeOctets f payload) now) := by
  unfold Session.capture
  rw [EncodedFrame.make_recode]
  cases EncodedFrame.make tags payload with
  | error e => exact ⟨rfl, h.warn _⟩
  | ok x => exact h.push id x now

/-! ### Sources and registries -/

theorem register (r : Ref .registry) (id source : RoutingId) :
    Paired (Recoded f) (s.register r id source) (t.register r id source) := by
  unfold Session.register
  rw [h.registry]
  split
  · exact ⟨rfl, h.warn _⟩
  · exact ⟨rfl, h.modifyRegistry r _⟩

theorem unregister (r : Ref .registry) (id : RoutingId) :
    Paired (Recoded f) (s.unregister r id) (t.unregister r id) :=
  ⟨congrArg (fun x : Registry => x.find? id) (h.registry r), h.modifyRegistry r _⟩

theorem addSource (r : Ref .registry) (c : SourceConfig) :
    Paired (Recoded f) (s.addSource r c) (t.addSource r c) := by
  have hnext : t.sources.next = s.sources.next := by rw [h.sources, Table.next_map]
  have hadded : Recoded f { s with sources := s.sources.add (Source.ofConfig c r) }
      { t with sources := t.sources.add (Source.ofConfig c r) } := by
    refine { h with sources := ?_ }
    show t.sources.add _ = (s.sources.add _).map _
    rw [h.sources, Table.map_add]
    rfl
  unfold Session.addSource
  dsimp only
  rw [hnext]
  exact ⟨rfl, (hadded.register r ⟨s.sources.next⟩ ⟨s.sources.next⟩).2⟩

theorem dropHandle (id : RoutingId) : Recoded f (s.dropHandle id) (t.dropHandle id) := by
  unfold Session.dropHandle
  rw [h.source?]
  cases s.source? id with
  | none => exact h
  | some src =>
    have hhandles : (src.recode f).handles = src.handles := rfl
    have hhome : (src.recode f).home = src.home := rfl
    dsimp only [Option.map_some]
    rw [hhandles, hhome]
    split
    · refine h.modifySource id ?_
      exact fun _ => rfl
    · refine Recoded.modifySource (h.unregister src.home id).2 id ?_
      exact fun _ => rfl

theorem consumeKeyframeRequest (id : RoutingId) :
    Paired (Recoded f) (s.consumeKeyframeRequest id) (t.consumeKeyframeRequest id) := by
  refine ⟨?_, h.modifySource id fun _ => rfl⟩
  show (t.source? id).any _ = (s.source? id).any _
  rw [h.source?, Option.any_map]
  rfl

theorem addTap (id : RoutingId) (tap : Tap) : Paired (Recoded f) (s.addTap id tap) (t.addTap id tap) := by
  refine ⟨?_, h.modifyPump id fun p => (p.addTap tap).2⟩
  show ((t.source? id).map _).getD 0 = ((s.source? id).map _).getD 0
  rw [h.source?, Option.map_map]
  rfl

theorem removeTap (id : RoutingId) (tap : TapId) : Paired (Recoded f) (s.removeTap id tap) (t.removeTap id tap) := by
  refine ⟨?_, h.modifyPump id fun p => p.removeTap tap⟩
  show (t.source? id).any _ = (s.source? id).any _
  rw [h.source?, Option.any_map]
  rfl

theorem registered (r : Ref .registry) (c : Codec) : t.registered r c = s.registered r c := by
  unfold Session.registered
  rw [h.registry]
  refine List.filter_congr fun e _ => ?_
  rw [h.source?, Option.any_map]
  rfl

theorem findByCodec : t.findByCodec = s.findByCodec := by
  funext r name
  unfold Session.findByCodec
  simp only [h.registered]

theorem codecs : t.codecs = s.codecs := by
  funext r
  unfold Session.codecs
  simp only [h.registered]

/-! ### Pipelines -/

theorem addPipeline (e : Ref .encoder) (settings : Settings) (o : Ref .output) :
    Paired (Recoded f) (s.addPipeline e settings o) (t.addPipeline e settings o) := by
  have hnext : t.pipelines.next = s.pipelines.next := by
    rw [← t.pipelines.next_map Pipeline.unsized, h.pipelines, Table.next_map]
  obtain ⟨hinit, hset⟩ := h.call e (.init settings)
  unfold Session.addPipeline
  dsimp only
  rw [hnext]
  cases hs : s.call e (.init settings) with
  | mk result s₁ =>
    cases ht : t.call e (.init settings) with
    | mk result' t₁ =>
      rw [hs, ht] at hinit hset
      dsimp only at hinit hset
      subst hinit
      cases result' with
      | error err => exact ⟨rfl, hset.dropEncoder e⟩
      | ok outcome =>
        obtain ⟨hconnect, hjoined⟩ := hset.call e (.connect ⟨o, some ⟨s.pipelines.next⟩⟩)
        dsimp only
        cases hs' : s₁.call e (.connect ⟨o, some ⟨s.pipelines.next⟩⟩) with
        | mk result₂ s₂ =>
          cases ht' : t₁.call e (.connect ⟨o, some ⟨s.pipelines.next⟩⟩) with
          | mk result₂' t₂ =>
            rw [hs', ht'] at hconnect hjoined
            dsimp only at hconnect hjoined
            subst hconnect
            cases result₂' with
            | error err => exact ⟨rfl, hjoined.dropEncoder e⟩
            | ok outcome =>
              refine ⟨rfl, { hjoined with pipelines := ?_ }⟩
              show (t₂.pipelines.add _).map _ = (s₂.pipelines.add _).map _
              rw [Table.map_add, Table.map_add, hjoined.pipelines]

theorem attach (p : Ref .pipeline) (id : RoutingId) : Paired (Recoded f) (s.attach p id) (t.attach p id) := by
  obtain ⟨hname, hadded⟩ := h.addTap id (.pipeline p)
  unfold Session.attach
  dsimp only
  rw [hname]
  refine ⟨rfl, hadded.adjust p ?_⟩
  exact fun _ => rfl

theorem removeTaps (taps : List (RoutingId × TapId)) :
    Recoded f (taps.foldl (fun s a => (s.removeTap a.1 a.2).2) s)
      (taps.foldl (fun s a => (s.removeTap a.1 a.2).2) t) := by
  induction taps generalizing s t with
  | nil => exact h
  | cons a rest ih => exact ih (h.removeTap a.1 a.2).2

theorem detach (p : Ref .pipeline) : Recoded f (s.detach p) (t.detach p) := by
  unfold Session.detach
  rcases h.pipeline?_cases p with ⟨hs, ht⟩ | ⟨x, y, hs, ht, -, -, hattachments⟩
  · rw [hs, ht]
    exact h
  · rw [hs, ht]
    dsimp only
    rw [hattachments]
    refine Recoded.removeTaps (h.adjust p ?_) _
    exact fun _ => rfl

theorem wantKeyframe (p : Ref .pipeline) : Recoded f (s.wantKeyframe p) (t.wantKeyframe p) := by
  refine h.adjust p ?_
  exact fun _ => rfl

theorem hintRate (p : Ref .pipeline) (hint : RateHint) : Recoded f (s.hintRate p hint) (t.hintRate p hint) := by
  unfold Session.hintRate
  rcases h.pipeline?_cases p with ⟨hs, ht⟩ | ⟨x, y, hs, ht, hencoder, -, -⟩
  · rw [hs, ht]
    exact h
  · rw [hs, ht]
    dsimp only
    rw [hencoder]
    exact (h.call x.encoder (.rate hint)).2

theorem checkRelease (r : Except Error Outcome) : Recoded f (s.checkRelease r) (t.checkRelease r) := by
  unfold Session.checkRelease
  split
  · exact h
  · exact h.warn _

theorem dropPipeline (p : Ref .pipeline) : Recoded f (s.dropPipeline p) (t.dropPipeline p) := by
  unfold Session.dropPipeline
  rcases h.pipeline?_cases p with ⟨hs, ht⟩ | ⟨x, y, hs, ht, hencoder, -, -⟩
  · rw [hs, ht]
    exact h
  · obtain ⟨hresult, hreleased⟩ := (h.detach p).call x.encoder .release
    rw [hs, ht]
    dsimp only
    rw [hencoder, hresult]
    have hdropped := (hreleased.checkRelease ((s.detach p).call x.encoder .release).1).dropEncoder x.encoder
    refine { hdropped with pipelines := ?_ }
    show (Table.erase _ p.number).map _ = (Table.erase _ p.number).map _
    rw [Table.map_erase, Table.map_erase, hdropped.pipelines]

/-! ### Outputs -/

theorem channel? (o : Ref .output) : t.channel? o = (s.channel? o).map (Channel.recode f) := by
  unfold Session.channel?
  rw [h.output?]
  cases s.output? o with
  | none => rfl
  | some x => cases x <;> rfl

/-- A change of a channel. -/
theorem modifyChannel (o : Ref .output) {g : Channel → Channel} (hg : ∀ c, (g c).recode f = g (c.recode f)) :
    Recoded f (s.modifyChannel o g) (t.modifyChannel o g) := by
  refine h.modifyOutput o fun x => ?_
  cases x with
  | channel c => exact congrArg Output.channel (hg c)
  | _ => rfl

theorem subscribe (o : Ref .output) : Paired (Recoded f) (s.subscribe o) (t.subscribe o) := by
  refine ⟨?_, h.modifyChannel o fun c => ?_⟩
  · show ((t.channel? o).map Channel.nextReceiver).getD 0 = ((s.channel? o).map Channel.nextReceiver).getD 0
    rw [h.channel?, Option.map_map]
    rfl
  · simp [Channel.subscribe, Channel.recode]

end Recoded

/-! ### Actions -/

section

variable (f : Payload → Payload)

def Reception.recode : Reception → Reception
  | image i => image (i.recode f)
  | r => r

/-- What comes back is the same but for the payloads in it. -/
def Reply.recode : Reply → Reply
  | frame x => frame (x.map (EncodedFrame.recode f))
  | images is => images (is.map (EmittedImage.recode f))
  | reception r => reception (r.recode f)
  | r => r

/-- The action, other payloads being pushed, or kept by an output. -/
def Action.recode : Action → Action
  | capture id tags payload now => capture id tags (recodeOctets f payload) now
  | push id x now => push id (x.recode f) now
  | addOutput o => addOutput (o.recode f)
  | a => a

end

theorem Channel.receive_recode (f : Payload → Payload) (c : Channel) (receiver : Nat) :
    (c.recode f).receive receiver = ((c.receive receiver).1.recode f, (c.receive receiver).2.recode f) := by
  have hcursor : (c.recode f).cursor receiver = c.cursor receiver := by simp [cursor, recode]
  have holdest : (c.recode f).oldest = c.oldest := by simp [oldest, recode]
  have hsent : (c.recode f).sent[c.cursor receiver]? = c.sent[c.cursor receiver]?.map (EmittedImage.recode f) := by
    simp [recode]
  unfold receive
  dsimp only
  rw [hcursor, holdest, hsent]
  split
  · rfl
  · cases c.sent[c.cursor receiver]? <;> rfl

namespace Recoded

variable {f : Payload → Payload} {s t : Session} (h : Recoded f s t)
include h

theorem receive (o : Ref .output) (receiver : Nat) :
    (t.receive o receiver).1 = (s.receive o receiver).1.recode f ∧
    Recoded f (s.receive o receiver).2 (t.receive o receiver).2 := by
  refine ⟨?_, h.modifyChannel o fun c => by rw [c.receive_recode f]⟩
  show ((t.channel? o).map _).getD .nothing = (((s.channel? o).map _).getD .nothing : Reception).recode f
  rw [h.channel?, Option.map_map]
  cases s.channel? o with
  | none => rfl
  | some c => exact congrArg Prod.fst (c.receive_recode f receiver)

theorem addOutput (o : Output) : Paired (Recoded f) (s.addOutput o) (t.addOutput (o.recode f)) := by
  have hnext : t.outputs.next = s.outputs.next := by rw [h.outputs, Table.next_map]
  refine ⟨congrArg Ref.mk hnext, { h with outputs := ?_ }⟩
  show t.outputs.add _ = (s.outputs.add _).map _
  rw [h.outputs, Table.map_add]
  rfl

theorem addEncoder (x : Encoder) : Paired (Recoded f) (s.addEncoder x) (t.addEncoder x) :=
  ⟨congrArg (fun xs : Table Encoder => (⟨xs.next⟩ : Ref .encoder)) h.encoders,
    { h with encoders := congrArg (fun xs => xs.add x) h.encoders }⟩

theorem collect (o : Ref .output) :
    ((t.output? o).map Output.images).getD []
      = (((s.output? o).map Output.images).getD []).map (EmittedImage.recode f) ∧
    Recoded f (s.modifyOutput o Output.cleared) (t.modifyOutput o Output.cleared) := by
  refine ⟨?_, h.modifyOutput o fun x => by cases x <;> simp [Output.cleared, Output.recode]⟩
  rw [h.output?]
  cases s.output? o with
  | none => rfl
  | some x => cases x <;> simp [Output.images, Output.recode]

/-- **No action looks at a payload.** -/
theorem perform (a : Action) :
    (t.perform (a.recode f)).1 = (s.perform a).1.recode f ∧
    Recoded f (s.perform a).2 (t.perform (a.recode f)).2 := by
  have hpaired : ∀ {α : Type} {x y : α × Session} {g : α → Reply}, Paired (Recoded f) x y →
      (∀ z, (g z).recode f = g z) → g y.1 = (g x.1).recode f ∧ Recoded f x.2 y.2 :=
    fun hxy hg => ⟨by rw [hg, hxy.1], hxy.2⟩
  cases a with
  | addRegistry =>
    exact ⟨congrArg (fun xs : Table Registry => Reply.made xs.next) h.registries,
      { h with registries := congrArg (fun xs => xs.add {}) h.registries }⟩
  | addOutput o => exact hpaired (g := fun x => .made x.number) (h.addOutput o) fun _ => rfl
  | addFallback x =>
    exact ⟨congrArg (fun xs : Table Fallback => Reply.made xs.next) h.fallbacks,
      { h with fallbacks := congrArg (fun xs => xs.add x) h.fallbacks }⟩
  | addRecorder =>
    exact ⟨congrArg (fun xs : Table (Array RawFrame) => Reply.made xs.next) h.recorders,
      { h with recorders := congrArg (fun xs => xs.add #[]) h.recorders }⟩
  | addObserver =>
    exact ⟨congrArg (fun xs : Table (Array (Option Nat)) => Reply.made xs.next) h.observers,
      { h with observers := congrArg (fun xs => xs.add #[]) h.observers }⟩
  | addSource r c => exact hpaired (g := fun x => .made x.number) (h.addSource r c) fun _ => rfl
  | addEncoder x => exact hpaired (g := fun x => .made x.number) (h.addEncoder x) fun _ => rfl
  | addPipeline e c o => exact hpaired (g := .pipeline) (h.addPipeline e c o) fun _ => rfl
  | register r id source => exact hpaired (g := .was) (h.register r id source) fun _ => rfl
  | unregister r id => exact hpaired (g := .source) (h.unregister r id) fun _ => rfl
  | addHandle id => exact ⟨rfl, h.modifySource id fun _ => rfl⟩
  | dropHandle id => exact ⟨rfl, h.dropHandle id⟩
  | capture id tags payload now => exact hpaired (g := .accepted) (h.capture id tags payload now) fun _ => rfl
  | push id x now => exact hpaired (g := .accepted) (h.push id x now) fun _ => rfl
  | take id =>
    obtain ⟨htaken, hrest⟩ := h.take id
    exact ⟨congrArg Reply.frame htaken, hrest⟩
  | requestKeyframe id => exact ⟨rfl, h.requestKeyframe id⟩
  | consumeKeyframeRequest id => exact hpaired (g := .was) (h.consumeKeyframeRequest id) fun _ => rfl
  | watch id w => exact ⟨rfl, h.modifySource id fun _ => rfl⟩
  | emit id capture now => exact hpaired (g := .stamp) (h.emit id capture now) fun _ => rfl
  | pushRaw id picture stamp => exact ⟨rfl, h.pushRaw id picture stamp⟩
  | addTap id tap => exact hpaired (g := .made) (h.addTap id tap) fun _ => rfl
  | removeTap id tap => exact hpaired (g := .was) (h.removeTap id tap) fun _ => rfl
  | call e c => exact hpaired (g := .outcome) (h.call e c) fun _ => rfl
  | dropEncoder e => exact ⟨rfl, h.dropEncoder e⟩
  | attach p id => exact hpaired (g := .made) (h.attach p id) fun _ => rfl
  | detach p => exact ⟨rfl, h.detach p⟩
  | wantKeyframe p => exact ⟨rfl, h.wantKeyframe p⟩
  | hintRate p hint => exact ⟨rfl, h.hintRate p hint⟩
  | dropPipeline p => exact ⟨rfl, h.dropPipeline p⟩
  | collect o =>
    obtain ⟨himages, hcleared⟩ := h.collect o
    exact ⟨congrArg Reply.images himages, hcleared⟩
  | subscribe o => exact hpaired (g := .made) (h.subscribe o) fun _ => rfl
  | unsubscribe o receiver => exact ⟨rfl, h.modifyChannel o fun _ => rfl⟩
  | receive o receiver =>
    obtain ⟨hreception, hrest⟩ := h.receive o receiver
    exact ⟨congrArg Reply.reception hreception, hrest⟩
  | dropOutput o =>
    refine ⟨rfl, { h with outputs := ?_ }⟩
    show t.outputs.modify o.number _ = (s.outputs.modify o.number _).map _
    rw [h.outputs]
    symm
    apply s.outputs.map_modify
    exact fun _ => rfl

end Recoded

end EncodedFeed
