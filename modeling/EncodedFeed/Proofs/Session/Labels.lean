import EncodedFeed.Proofs.Session.Conservation
import EncodedFeed.Session.Groups

/-!
# Labels of images

An encoder puts its own codec on every image, whatever source the payload came from.  For an encoder that
is bound to a source the two codecs agree, since its factory saw to that.  An encoder that is routed through
a registry takes frames from whatever source a raw frame names, and is checked against none of them: there
the label is right as long as nothing but sources of its codec can be found.

`Emits` is what a call to one encoder does in this respect, `Labels` what calls to any of them do.
-/

namespace EncodedFeed

/-! ### Images and where they come from -/

/-- The information says that a frame is of a codec, with packetization and IDR flag as the codec has it. -/
structure CodecInfo.Fits (info : CodecInfo) (f : EncodedFrame) (c : Codec) : Prop where
  codec : info.codec = c
  mode : info.mode.isSome = (c == .h264)
  idr : info.isIdr = (c == .h264 && f.isKey)

/-- What an encoder is made for: where its frames come from, and the codec it puts on images. -/
structure Origin where
  binding : Binding
  codec : Codec
deriving DecidableEq

/-- What a passthrough encoder is made for. -/
def Passthrough.origin (p : Passthrough) : Origin := ⟨p.binding, p.codec⟩

/-- What a lazy encoder is made for. -/
def Lazy.origin (l : Lazy) : Origin := ⟨.routed l.registry, l.codec⟩

/-- What an encoder is made for. -/
def Encoder.origin : Encoder → Origin
  | passthrough p => p.origin
  | lazy l => l.origin

/-- The encoder chosen, if it is a passthrough encoder, is for this. -/
def Chosen.IsFor (o : Origin) : Chosen → Prop
  | passthrough p => p.origin = o
  | fallback => True

/-- The encoder it has chosen is for the same. -/
def Lazy.Loyal (l : Lazy) : Prop := ∀ chosen, l.chosen = some chosen → chosen.IsFor l.origin

/-- A lazy encoder is loyal. -/
def Encoder.Loyal : Encoder → Prop
  | passthrough _ => True
  | lazy l => l.Loyal

theorem Passthrough.image_fits (p : Passthrough) (f : EncodedFrame) (raw : RawFrame) :
    (p.image f raw).info.Fits f p.codec := by
  refine ⟨rfl, ?_, rfl⟩
  by_cases h : p.codec = .h264 <;> simp [Passthrough.image, h]

theorem Passthrough.origin_of_init {p q : Passthrough} {settings : Settings} (h : p.init settings = .ok q) :
    q.origin = p.origin := by
  unfold init at h
  split at h
  · cases h
  · split at h
    · cases h
    · cases h
      rfl

theorem Passthrough.origin_release (p : Passthrough) : p.release.origin = p.origin := by
  unfold release
  split <;> rfl

/-- Every image is presented right after the frame it is made from was taken, and `P` holds of them. -/
inductive Presents (P : RoutingId → EncodedFrame → EmittedImage → Prop) : List Event → Prop
  | nil : Presents P []
  | pushed {id f es} : Presents P es → Presents P (.pushed id f :: es)
  | asked {id es} : Presents P es → Presents P (.asked id :: es)
  | warned {w es} : Presents P es → Presents P (.warned w :: es)
  | taken {id f es} : Presents P es → Presents P (.taken id f :: es)
  | passed {id f o i r es} : P id f i → Presents P es → Presents P (.taken id f :: .presented o i r :: es)

namespace Presents

variable {P Q : RoutingId → EncodedFrame → EmittedImage → Prop} {es es' : List Event}

theorem append (h : Presents P es) (h' : Presents P es') : Presents P (es ++ es') := by
  induction h with
  | nil => exact h'
  | pushed _ ih => exact .pushed ih
  | asked _ ih => exact .asked ih
  | warned _ ih => exact .warned ih
  | taken _ ih => exact .taken ih
  | passed hp _ ih => exact .passed hp ih

theorem mono (hPQ : ∀ id f i, P id f i → Q id f i) (h : Presents P es) : Presents Q es := by
  induction h with
  | nil => exact .nil
  | pushed _ ih => exact .pushed ih
  | asked _ ih => exact .asked ih
  | warned _ ih => exact .warned ih
  | taken _ ih => exact .taken ih
  | passed hp _ ih => exact .passed (hPQ _ _ _ hp) ih

end Presents

namespace Session

/-- The codec of a source. -/
def codec? (s : Session) (id : RoutingId) : Option Codec := (s.source? id).map Source.codec

/-- An encoder with this binding can be led to take frames from the source. -/
def Reaches (s : Session) (id : RoutingId) : Binding → Prop
  | .bound source => source = id
  | .routed r => ∃ n, (s.registry r).find? n = some id

theorem reaches_of_resolve {s : Session} {b : Binding} {raw : RawFrame} {id : RoutingId}
    (h : s.resolve b raw = some id) : s.Reaches id b := by
  cases b with
  | bound source => simpa [resolve, Reaches] using h
  | routed r =>
    obtain ⟨n, _, hn⟩ := Option.bind_eq_some_iff.mp h
    exact ⟨n, hn⟩

theorem codec?_of_sources_eq {s t : Session} (h : t.sources = s.sources) (id : RoutingId) :
    t.codec? id = s.codec? id := by
  rw [codec?, source?, h]; rfl

theorem codec?_modifySource (s : Session) (id : RoutingId) {f : Source → Source}
    (hf : ∀ src, (f src).codec = src.codec) (j : RoutingId) :
    (s.modifySource id f).codec? j = s.codec? j := by
  rw [codec?, source?_modifySource]
  split
  · rw [Option.map_map]
    exact congrArg (fun g => (s.source? j).map g) (funext hf)
  · rfl

theorem requestKeyframe_keeps (s : Session) (id : RoutingId) :
    (s.requestKeyframe id).journal = .asked id :: s.journal ∧
    (∀ j, (s.requestKeyframe id).codec? j = s.codec? j) ∧
    (s.requestKeyframe id).registries = s.registries ∧ (s.requestKeyframe id).encoders = s.encoders := by
  have hcodec := s.codec?_modifySource id (f := Source.requestKeyframe) fun _ => rfl
  unfold requestKeyframe
  dsimp only
  split <;> exact ⟨rfl, hcodec, rfl, rfl⟩

end Session

/-! ### One encoder -/

/-- From `s` to `t` the events `es` happen, and images come from an encoder made for `o`. -/
structure Emits (o : Origin) (es : List Event) (s t : Session) : Prop where
  journal : t.journal = es.reverse ++ s.journal
  codec (id : RoutingId) : t.codec? id = s.codec? id
  registries : t.registries = s.registries
  encoders : t.encoders = s.encoders
  presents : Presents (fun id f i => i.info.Fits f o.codec ∧ s.Reaches id o.binding) es

namespace Session

variable {o : Origin}

theorem reaches_of_registries_eq {s t : Session} (h : t.registries = s.registries) {id : RoutingId}
    {b : Binding} (hr : t.Reaches id b) : s.Reaches id b := by
  cases b with
  | bound source => exact hr
  | routed r =>
    have hreg : t.registry r = s.registry r := by rw [registry, h]; rfl
    rwa [Reaches, ← hreg]

end Session

namespace Emits

variable {o : Origin} {s t u : Session} {es es' : List Event}

theorem trans (h : Emits o es s t) (h' : Emits o es' t u) : Emits o (es ++ es') s u where
  journal := by rw [h'.journal, h.journal, List.reverse_append, List.append_assoc]
  codec id := (h'.codec id).trans (h.codec id)
  registries := h'.registries.trans h.registries
  encoders := h'.encoders.trans h.encoders
  presents := h.presents.append
    (h'.presents.mono fun _ _ _ hp => ⟨hp.1, Session.reaches_of_registries_eq h.registries hp.2⟩)

theorem refl (o : Origin) (s : Session) : Emits o [] s s := ⟨rfl, fun _ => rfl, rfl, rfl, .nil⟩

theorem warn (o : Origin) (s : Session) (w : Warning) : Emits o [.warned w] s (s.warn w) :=
  ⟨rfl, fun _ => rfl, rfl, rfl, .warned .nil⟩

theorem fallback (o : Origin) (s : Session) (f : Ref .fallback) (g : Fallback → Fallback) :
    Emits o [] s { s with fallbacks := s.fallbacks.modify f.number g } :=
  ⟨rfl, fun _ => rfl, rfl, rfl, .nil⟩

theorem requestKeyframe (o : Origin) (s : Session) (id : RoutingId) :
    Emits o [.asked id] s (s.requestKeyframe id) := by
  obtain ⟨hj, hcodec, hreg, henc⟩ := s.requestKeyframe_keeps id
  exact ⟨hj, hcodec, hreg, henc, .asked .nil⟩

end Emits

namespace Session

variable {o : Origin}

/-- The head of a queue becomes an image of the encoder that is pulled. -/
theorem emits_present {s : Session} {p : Passthrough} {id : RoutingId} {f : EncodedFrame}
    {rest : List EncodedFrame} (hq : s.queue id = f :: rest) (d : Destination) (raw : RawFrame)
    (hr : s.Reaches id p.binding) :
    ∃ es, Emits p.origin es s ((s.take id).2.present d (p.image f raw)).2 := by
  rw [take_of_queue_cons hq]
  set t := (s.modifySource id fun src => { src with queue := rest }).note (.taken id f) with ht
  obtain ⟨hsrc, hj, _⟩ := present_snd t d (p.image f raw)
  have hrest : (t.present d (p.image f raw)).2.registries = s.registries ∧
      (t.present d (p.image f raw)).2.encoders = s.encoders := by
    unfold present
    dsimp only
    split <;> exact ⟨rfl, rfl⟩
  refine ⟨[.taken id f, .presented d.output (p.image f raw) (t.present d (p.image f raw)).1],
    hj, fun j => ?_, hrest.1, hrest.2, .passed ⟨p.image_fits f raw, hr⟩ .nil⟩
  rw [codec?_of_sources_eq hsrc]
  exact s.codec?_modifySource id (f := fun src => { src with queue := rest }) (fun _ => rfl) j

theorem emits_passOn (s : Session) (p : Passthrough) (d : Destination) {id : RoutingId} (raw : RawFrame)
    (hr : s.Reaches id p.binding) :
    (∃ es, Emits p.origin es s (s.passOn p d id raw).2.2) ∧
      (s.passOn p d id raw).2.1.origin = p.origin := by
  unfold passOn
  cases hq : s.queue id with
  | nil =>
    rw [take_of_queue_nil hq]
    exact ⟨⟨[], .refl _ s⟩, rfl⟩
  | cons f rest =>
    obtain ⟨es, hes⟩ := emits_present hq d raw hr
    have hf : (s.take id).1 = some f := by rw [take_of_queue_cons hq]
    split
    · next heq => rw [heq] at hf; cases hf
    · next f' t heq =>
      rw [heq, Option.some.injEq] at hf
      subst hf
      rw [heq] at hes
      split
      · next e u hu =>
        rw [hu] at hes
        exact ⟨⟨_, hes.trans (.warn _ u _)⟩, rfl⟩
      · next u hu =>
        rw [hu] at hes
        exact ⟨⟨_, hes⟩, rfl⟩

theorem emits_pull (s : Session) (p : Passthrough) (raw : RawFrame) (types : List FrameType) :
    (∃ es, Emits p.origin es s (s.pull p raw types).2.2) ∧
      (s.pull p raw types).2.1.origin = p.origin := by
  unfold pull
  split
  · exact ⟨⟨[], .refl _ s⟩, rfl⟩
  · exact ⟨⟨[], .refl _ s⟩, rfl⟩
  · next d _ _ =>
    split
    · exact ⟨⟨_, .warn _ s _⟩, rfl⟩
    · next id hid =>
      obtain ⟨es, hask⟩ : ∃ es, Emits p.origin es s
          (if types.contains .key then s.requestKeyframe id else s) := by
        split
        · exact ⟨_, .requestKeyframe _ s id⟩
        · exact ⟨[], .refl _ s⟩
      dsimp only
      generalize (if types.contains .key then s.requestKeyframe id else s) = t at hask ⊢
      split
      · have hreach : t.Reaches id p.binding :=
          reaches_of_registries_eq hask.registries.symm (reaches_of_resolve hid)
        obtain ⟨⟨es', hpass⟩, horigin⟩ := t.emits_passOn p d raw hreach
        exact ⟨⟨_, hask.trans hpass⟩, horigin⟩
      · exact ⟨⟨es, hask⟩, rfl⟩

theorem emits_callPassthrough (s : Session) (p : Passthrough) (c : Call) :
    (∃ es, Emits p.origin es s (s.callPassthrough p c).2.2) ∧
      (s.callPassthrough p c).2.1.origin = p.origin := by
  cases c with
  | pull raw types => exact s.emits_pull p raw types
  | init settings =>
    unfold callPassthrough
    dsimp only
    split
    · next q hq => exact ⟨⟨[], .refl _ s⟩, Passthrough.origin_of_init hq⟩
    · exact ⟨⟨[], .refl _ s⟩, rfl⟩
  | connect d => exact ⟨⟨[], .refl _ s⟩, rfl⟩
  | release => exact ⟨⟨[], .refl _ s⟩, p.origin_release⟩
  | rate hint => exact ⟨⟨[], .refl _ s⟩, rfl⟩

theorem emits_callFallback (o : Origin) (s : Session) (f : Ref .fallback) (c : Call) :
    ∃ es, Emits o es s (s.callFallback f c).2 := ⟨[], .fallback o s f _⟩

theorem emits_callChosen (s : Session) (l : Lazy) {chosen : Chosen} (h : chosen.IsFor o) (c : Call) :
    (∃ es, Emits o es s (s.callChosen l chosen c).2.2) ∧ (s.callChosen l chosen c).2.1.IsFor o := by
  cases chosen with
  | passthrough p =>
    obtain ⟨hes, horigin⟩ := s.emits_callPassthrough p c
    rw [show p.origin = o from h] at hes horigin
    exact ⟨hes, horigin⟩
  | fallback => exact ⟨s.emits_callFallback o l.fallback c, trivial⟩

theorem emits_callAll (l : Lazy) (calls : List Call) (s : Session) {chosen : Chosen}
    (h : chosen.IsFor o) :
    (∃ es, Emits o es s (s.callAll l chosen calls).2.2) ∧ (s.callAll l chosen calls).2.1.IsFor o := by
  induction calls generalizing s chosen with
  | nil => exact ⟨⟨[], .refl o s⟩, h⟩
  | cons c rest ih =>
    obtain ⟨⟨es, hes⟩, hc⟩ := s.emits_callChosen l h c
    rw [callAll]
    split
    · next heq =>
      rw [heq] at hes hc
      obtain ⟨⟨es', hes'⟩, hall⟩ := ih _ hc
      exact ⟨⟨_, hes.trans hes'⟩, hall⟩
    · next heq =>
      rw [heq] at hes hc
      exact ⟨⟨es, hes⟩, hc⟩

/-! ### A lazy encoder -/

/-- What is left of a call to a lazy encoder that is loyal. -/
structure Answers (s : Session) (l : Lazy) (r : Result Lazy) : Prop where
  emits : ∃ es, Emits l.origin es s r.2.2
  origin : r.2.1.origin = l.origin
  loyal : r.2.1.Loyal

theorem answers_settle (s : Session) {l : Lazy} (hl : l.Loyal) {x : Chosen} (h : x.IsFor l.origin) :
    s.Answers l (s.settle l x) := by
  obtain ⟨hes, hc⟩ := s.emits_callAll l l.kept h
  unfold settle
  split <;> next heq =>
    rw [heq] at hes hc
    first
    | exact ⟨hes, rfl, fun x hx => by cases hx; exact hc⟩
    | exact ⟨hes, rfl, hl⟩

theorem answers_choose (s : Session) {l : Lazy} (hl : l.Loyal) (raw : RawFrame) :
    s.Answers l (s.choose l raw) := by
  unfold choose
  split
  · have h := s.answers_settle (l := { l with mode := .passthrough }) hl
      (x := .passthrough l.passthrough) rfl
    exact ⟨h.emits, h.origin, h.loyal⟩
  · dsimp only
    have hask := Emits.fallback l.origin s l.fallback fun x => x.ask l.format
    split
    · have h := answers_settle
        { s with fallbacks := s.fallbacks.modify l.fallback.number fun x => x.ask l.format }
        (l := { l with mode := .fallback }) hl (x := .fallback) trivial
      obtain ⟨es, hes⟩ := h.emits
      exact ⟨⟨_, hask.trans hes⟩, h.origin, h.loyal⟩
    · exact ⟨⟨_, hask⟩, rfl, hl⟩

theorem answers_forward (s : Session) {l : Lazy} (hl : l.Loyal) (c : Call) :
    s.Answers l (s.forward l c) := by
  unfold forward
  split
  · exact ⟨⟨[], .refl _ s⟩, rfl, hl⟩
  · next chosen hchosen =>
    obtain ⟨hes, hc⟩ := s.emits_callChosen l (hl chosen hchosen) c
    exact ⟨hes, rfl, fun x hx => by cases hx; exact hc⟩

theorem answers_pullLazy (s : Session) {l : Lazy} (hl : l.Loyal) (raw : RawFrame)
    (types : List FrameType) : s.Answers l (s.pullLazy l raw types) := by
  have hc := s.answers_choose hl raw
  unfold pullLazy
  split
  · exact ⟨⟨[], .refl _ s⟩, rfl, hl⟩
  · split
    · exact s.answers_forward hl _
    · split
      · next l' t heq =>
        rw [heq] at hc
        have hf := t.answers_forward hc.loyal (.pull raw types)
        obtain ⟨es, hes⟩ := hc.emits
        obtain ⟨es', hes'⟩ := hf.emits
        have horigin : l'.origin = l.origin := hc.origin
        rw [horigin] at hes'
        exact ⟨⟨_, hes.trans hes'⟩, hf.origin.trans horigin, hf.loyal⟩
      · next heq =>
        rw [heq] at hc
        exact hc

theorem answers_callLazy (s : Session) {l : Lazy} (hl : l.Loyal) (c : Call) :
    s.Answers l (s.callLazy l c) := by
  cases c with
  | init settings =>
    have h := s.answers_forward (l := { l with settings := some settings }) hl (.init settings)
    exact ⟨h.emits, h.origin, h.loyal⟩
  | connect d =>
    have h := s.answers_forward (l := { l with destination := some d }) hl (.connect d)
    exact ⟨h.emits, h.origin, h.loyal⟩
  | rate hint =>
    have h := s.answers_forward (l := { l with rate := some hint }) hl (.rate hint)
    exact ⟨h.emits, h.origin, h.loyal⟩
  | release =>
    have h := s.answers_forward hl .release
    exact ⟨h.emits, h.origin, fun _ hx => by cases hx⟩
  | pull raw types => exact s.answers_pullLazy hl raw types

/-! ### All encoders -/

/-- Every encoder is loyal, and one bound to a source is for the codec of that source. -/
def Sound (s : Session) : Prop :=
  ∀ e x, s.encoder? e = some x →
    x.Loyal ∧ ∀ id, x.origin.binding = .bound id → s.codec? id = some x.origin.codec

/-- A frame of the source becomes the image in one of the encoders. -/
def Serves (s : Session) (id : RoutingId) (f : EncodedFrame) (i : EmittedImage) : Prop :=
  ∃ e x, s.encoder? e = some x ∧ i.info.Fits f x.origin.codec ∧ s.Reaches id x.origin.binding

end Session

/-- From a sound session `s` to `t` the events `es` happen: sources keep their codecs, encoders stay what
they are for, and images come from the encoders of `s`. -/
structure Labels (es : List Event) (s t : Session) : Prop where
  journal : t.journal = es.reverse ++ s.journal
  codec (id : RoutingId) : t.codec? id = s.codec? id
  registries : t.registries = s.registries
  encoder {e : Ref .encoder} {y : Encoder} : t.encoder? e = some y →
    y.Loyal ∧ ∃ x, s.encoder? e = some x ∧ y.origin = x.origin
  presents : Presents s.Serves es

namespace Labels

variable {s t u : Session} {es es' : List Event}

theorem sound (h : Labels es s t) (hs : s.Sound) : t.Sound := fun e y hy => by
  obtain ⟨hl, x, hx, ho⟩ := h.encoder hy
  refine ⟨hl, fun id hb => ?_⟩
  rw [ho] at hb ⊢
  rw [h.codec id]
  exact (hs e x hx).2 id hb

theorem trans (h : Labels es s t) (h' : Labels es' t u) : Labels (es ++ es') s u where
  journal := by rw [h'.journal, h.journal, List.reverse_append, List.append_assoc]
  codec id := (h'.codec id).trans (h.codec id)
  registries := h'.registries.trans h.registries
  encoder hz := by
    obtain ⟨hl, y, hy, ho⟩ := h'.encoder hz
    obtain ⟨_, x, hx, ho'⟩ := h.encoder hy
    exact ⟨hl, x, hx, ho.trans ho'⟩
  presents := by
    refine h.presents.append (h'.presents.mono fun id f i => ?_)
    rintro ⟨e, y, hy, hfit, hr⟩
    obtain ⟨_, x, hx, ho⟩ := h.encoder hy
    rw [ho] at hfit hr
    exact ⟨e, x, hx, hfit, Session.reaches_of_registries_eq h.registries hr⟩

/-- A change that touches no encoder. -/
theorem of_encoders_eq (hs : s.Sound) (hj : t.journal = es.reverse ++ s.journal)
    (hc : ∀ id, t.codec? id = s.codec? id) (hr : t.registries = s.registries)
    (he : t.encoders = s.encoders) (hp : Presents s.Serves es) : Labels es s t where
  journal := hj
  codec := hc
  registries := hr
  encoder {e y} hy := by
    have hx : s.encoder? e = some y := by rw [← hy, Session.encoder?, Session.encoder?, he]
    exact ⟨(hs e y hx).1, y, hx, rfl⟩
  presents := hp

/-- A change that touches neither the journal nor sources, registries and encoders. -/
theorem elsewhere (hs : s.Sound) (hj : t.journal = s.journal) (hsrc : t.sources = s.sources)
    (hr : t.registries = s.registries) (he : t.encoders = s.encoders) : Labels [] s t :=
  of_encoders_eq hs hj (Session.codec?_of_sources_eq hsrc) hr he .nil

theorem modifySource (hs : s.Sound) (id : RoutingId) {f : Source → Source}
    (hf : ∀ src, (f src).codec = src.codec) : Labels [] s (s.modifySource id f) :=
  of_encoders_eq hs rfl (s.codec?_modifySource id hf) rfl rfl .nil

theorem note (hs : s.Sound) {e : Event} (he : Presents s.Serves [e]) : Labels [e] s (s.note e) :=
  of_encoders_eq hs rfl (fun _ => rfl) rfl rfl he

/-- The encoder that is called takes the place of itself. -/
theorem setEncoder (hs : s.Sound) {e : Ref .encoder} {x y : Encoder} (hx : s.encoder? e = some x)
    (h : Emits x.origin es s t) (ho : y.origin = x.origin) (hy : y.Loyal) :
    Labels es s (t.setEncoder e y) where
  journal := h.journal
  codec := h.codec
  registries := h.registries
  encoder {e' z} hz := by
    have henc : t.encoder? e' = s.encoder? e' := by rw [Session.encoder?, h.encoders]; rfl
    rw [Session.encoder?_setEncoder, henc] at hz
    split at hz
    · next heq =>
      subst heq
      rw [hx, Option.map_some, Option.some.injEq] at hz
      subst hz
      exact ⟨hy, x, hx, ho⟩
    · exact ⟨(hs e' z hz).1, z, hz, rfl⟩
  presents := h.presents.mono fun _ _ _ hp => ⟨e, x, hx, hp.1, hp.2⟩

end Labels

namespace Session

theorem labels_call {s : Session} (hs : s.Sound) (e : Ref .encoder) (c : Call) :
    ∃ es, Labels es s (s.call e c).2 := by
  unfold call
  split
  · exact ⟨[], .elsewhere hs rfl rfl rfl rfl⟩
  · next p hp =>
    obtain ⟨⟨es, hes⟩, ho⟩ := s.emits_callPassthrough p c
    exact ⟨es, .setEncoder hs hp hes ho trivial⟩
  · next l hl =>
    have h := s.answers_callLazy (hs e _ hl).1 c
    obtain ⟨es, hes⟩ := h.emits
    exact ⟨es, .setEncoder hs hl hes h.origin h.loyal⟩

theorem labels_dropEncoder {s : Session} (hs : s.Sound) (e : Ref .encoder) :
    Labels [] s (s.dropEncoder e) where
  journal := rfl
  codec _ := rfl
  registries := rfl
  encoder {e' y} hy := by
    rw [encoder?_dropEncoder] at hy
    split at hy
    · cases hy
    · exact ⟨(hs e' y hy).1, y, hy, rfl⟩
  presents := .nil

end Session

theorem carried_labels : Carried fun s t => s.Sound → ∃ es, Labels es s t where
  refl _ hs := ⟨[], .elsewhere hs rfl rfl rfl rfl⟩
  trans h h' hs := by
    obtain ⟨es, hes⟩ := h hs
    obtain ⟨es', hes'⟩ := h' (hes.sound hs)
    exact ⟨_, hes.trans hes'⟩
  warn s w hs := ⟨_, .note hs (.warned .nil)⟩
  call _ e c hs := Session.labels_call hs e c
  drop _ e hs := ⟨[], Session.labels_dropEncoder hs e⟩
  pipeline _ _ _ _ hs := ⟨[], .elsewhere hs rfl rfl rfl rfl⟩
  recorder _ _ _ hs := ⟨[], .elsewhere hs rfl rfl rfl rfl⟩
  pump _ id _ _ hs := ⟨[], .modifySource hs id fun _ => rfl⟩

/-! ### Encoders from factories -/

/-- A factory bound to a source is for the codec of that source. -/
def Factory.Suits (s : Session) : Factory → Prop
  | passthrough f => ∀ id c, f.binding = .source id c → s.codec? id = some c
  | lazy _ => True

theorem Codec.eq_of_sameName {c c' : Codec} {name : String} (h : sameName c.sdpName name = true)
    (h' : sameName c'.sdpName name = true) : c = c' := by
  have hlower : c.sdpName.toLower = c'.sdpName.toLower := by
    rw [sameName, beq_iff_eq] at h h'
    rw [h, h']
  have hinj : ∀ a b : Codec, a.sdpName.toLower = b.sdpName.toLower → a = b := by
    intro a b
    cases a <;> cases b <;> decide +kernel
  exact hinj c c' hlower

theorem Codec.sameName_of_ofSdpName? {name : String} {c : Codec} (h : ofSdpName? name = some c) :
    sameName c.sdpName name = true := by
  have hfound : all.find? (fun c => sameName c.sdpName name) = some c := h
  simpa using List.find?_some hfound

/-- A name names the codec whose own name it is, but for case. -/
theorem Codec.ofSdpName?_eq_some_iff {name : String} {c : Codec} :
    ofSdpName? name = some c ↔ sameName c.sdpName name = true := by
  refine ⟨sameName_of_ofSdpName?, fun h => ?_⟩
  have hall : c ∈ all := by
    cases c <;> decide
  obtain ⟨c', hfound⟩ : ∃ c', ofSdpName? name = some c' := by
    rw [← Option.isSome_iff_exists, ofSdpName?, List.find?_isSome]
    exact ⟨c, hall, h⟩
  rw [hfound, eq_of_sameName (sameName_of_ofSdpName? hfound) h]

/-- What a factory makes is loyal, and bound to a source only if it is for the codec of that source. -/
theorem Factory.made_sound {s : Session} {f : Factory} (hf : f.Suits s) {format : SdpFormat} {e : Encoder}
    (h : f.create? s.findByCodec format = some e) :
    e.Loyal ∧ ∀ id, e.origin.binding = .bound id → s.codec? id = some e.origin.codec := by
  cases f with
  | passthrough f =>
    obtain ⟨p, hp, rfl⟩ := Option.map_eq_some_iff.mp h
    refine ⟨trivial, fun id hb => ?_⟩
    unfold PassthroughFactory.create? at hp
    split at hp
    · next hserves =>
      obtain ⟨c, hc, rfl⟩ := Option.map_eq_some_iff.mp hp
      have hname := Codec.sameName_of_ofSdpName? hc
      cases hbind : f.binding with
      | source id' c' =>
        have hid : id' = id := by
          simpa [Encoder.origin, Passthrough.origin, Passthrough.make, PassthroughFactory.encoderBinding,
            hbind] using hb
        subst hid
        have hserved : Codec.sameName c'.sdpName format.name = true := by
          simpa [PassthroughFactory.serves, hbind] using hserves
        rw [Codec.eq_of_sameName hserved hname] at hbind
        exact hf id' c hbind
      | registry r =>
        simp [Encoder.origin, Passthrough.origin, Passthrough.make, PassthroughFactory.encoderBinding,
          hbind] at hb
    · cases hp
  | lazy f =>
    obtain ⟨l, hl, rfl⟩ := Option.map_eq_some_iff.mp h
    have hnone : l.chosen = none := by
      unfold LazyFactory.create? Lazy.make at hl
      split at hl
      · split at hl
        · cases hl
        · cases hl
          rfl
      · cases hl
    refine ⟨fun x hx => ?_, fun id hb => ?_⟩
    · rw [hnone] at hx
      cases hx
    · cases hb

namespace Step

/-- An encoder that is added is made by a factory of that moment. -/
def FromFactory (x : Step) : Prop :=
  ∀ e, x.action = .addEncoder e →
    ∃ (f : Factory) (format : SdpFormat), f.Suits x.before ∧ f.create? x.before.findByCodec format = some e

/-- A step presents only what encoders serve, and leaves all of them sound. -/
def LabelsWell (x : Step) : Prop := Presents x.before.Serves x.events ∧ x.after.Sound

theorem labelsWell_of_labels {x : Step} (hs : x.before.Sound) {es : List Event}
    (h : Labels es x.before x.after) : x.LabelsWell := by
  refine ⟨?_, h.sound hs⟩
  rw [events, Session.eventsSince_eq h.journal]
  exact h.presents

/-- Steps that leave encoders alone, present nothing and keep the codecs of sources. -/
theorem labelsWell_of_quiet {x : Step} (hs : x.before.Sound) {l : List Event}
    (hj : x.after.journal = l.reverse ++ x.before.journal) (hp : Presents x.before.Serves l)
    (he : x.after.encoders = x.before.encoders)
    (hc : ∀ id c, x.before.codec? id = some c → x.after.codec? id = some c) : x.LabelsWell := by
  refine ⟨?_, fun e y hy => ?_⟩
  · rw [events, Session.eventsSince_eq hj]
    exact hp
  · rw [Session.encoder?, he] at hy
    obtain ⟨hl, hb⟩ := hs e y hy
    exact ⟨hl, fun id h => hc id _ (hb id h)⟩

end Step

namespace Session

theorem register_snd (s : Session) (r : Ref .registry) (id source : RoutingId) :
    ∃ es, (s.register r id source).2.journal = es.reverse ++ s.journal ∧ (∀ P, Presents P es) ∧
      (s.register r id source).2.encoders = s.encoders ∧ (s.register r id source).2.sources = s.sources := by
  unfold register
  split
  · exact ⟨[.warned _], rfl, fun _ => .warned .nil, rfl, rfl⟩
  · exact ⟨[], rfl, fun _ => .nil, rfl, rfl⟩

theorem labels_push {s : Session} (hs : s.Sound) (id : RoutingId) (f : EncodedFrame) (now : Int64) :
    ∃ es, Labels es s (s.push id f now).2 := by
  have h := carried_labels
  unfold push
  split
  · exact h.refl s hs
  · split
    · exact h.refl s hs
    · have hin := (Labels.modifySource hs id (f := fun src => src.enqueue f) fun _ => rfl)
      have hnote := hin.trans (.note (hin.sound hs) (e := .pushed id f) (.pushed .nil))
      exact h.trans (fun _ => ⟨_, hnote⟩) (h.trans (h.checkDepth _ id) (h.emit _ id _ now)) hs

theorem labels_capture {s : Session} (hs : s.Sound) (id : RoutingId) (tags : FrameTags) (payload : Octets)
    (now : Int64) : ∃ es, Labels es s (s.capture id tags payload now).2 := by
  unfold capture
  split
  · exact ⟨_, .note hs (.warned .nil)⟩
  · exact labels_push hs id _ now

theorem labels_take {s : Session} (hs : s.Sound) (id : RoutingId) : ∃ es, Labels es s (s.take id).2 := by
  cases hq : s.queue id with
  | nil => rw [take_of_queue_nil hq]; exact carried_labels.refl s hs
  | cons f rest =>
    rw [take_of_queue_cons hq]
    have hout := Labels.modifySource hs id (f := fun src => { src with queue := rest }) fun _ => rfl
    exact ⟨_, hout.trans (.note (hout.sound hs) (e := .taken id f) (.taken .nil))⟩

theorem labels_addPipeline {s : Session} (hs : s.Sound) (e : Ref .encoder) (c : Settings)
    (o : Ref .output) : ∃ es, Labels es s (s.addPipeline e c o).2 := by
  have h := carried_labels
  have hinit := h.call s e (.init c)
  unfold addPipeline
  dsimp only
  split
  · next t heq =>
    rw [heq] at hinit
    exact h.trans hinit (h.drop t e) hs
  · next t heq =>
    rw [heq] at hinit
    have hconnect := h.trans hinit (h.call t e (.connect ⟨o, some ⟨s.pipelines.next⟩⟩))
    split
    · next u heq' =>
      rw [heq'] at hconnect
      exact h.trans hconnect (h.drop u e) hs
    · next u heq' =>
      rw [heq'] at hconnect
      exact h.trans hconnect (fun hu => ⟨[], .elsewhere hu rfl rfl rfl rfl⟩) hs

theorem labels_dropPipeline {s : Session} (hs : s.Sound) (p : Ref .pipeline) :
    ∃ es, Labels es s (s.dropPipeline p) := by
  have h := carried_labels
  unfold dropPipeline
  split
  · exact h.refl s hs
  · next x _ =>
    have hcall := h.trans (h.detach s p) (h.call (s.detach p) x.encoder .release)
    have hdrop := h.trans (h.checkRelease _ ((s.detach p).call x.encoder .release).1)
      (h.drop (((s.detach p).call x.encoder .release).2.checkRelease _) x.encoder)
    exact h.trans (h.trans hcall hdrop) (fun hu => ⟨[], .elsewhere hu rfl rfl rfl rfl⟩) hs

theorem dropHandle_keeps (s : Session) (id : RoutingId) :
    (s.dropHandle id).journal = s.journal ∧ (s.dropHandle id).encoders = s.encoders ∧
    ∀ j, (s.dropHandle id).codec? j = s.codec? j := by
  unfold dropHandle
  split
  · exact ⟨rfl, rfl, fun _ => rfl⟩
  · next src _ =>
    split
    · exact ⟨rfl, rfl, s.codec?_modifySource id
        (f := fun src => { src with handles := src.handles - 1 }) fun _ => rfl⟩
    · exact ⟨rfl, rfl, (s.unregister src.home id).2.codec?_modifySource id
        (f := fun src => { src.close with handles := 0 }) fun _ => rfl⟩

theorem codec?_addSource (s : Session) (r : Ref .registry) (c : SourceConfig) {id : RoutingId} {k : Codec}
    (h : s.codec? id = some k) : (s.addSource r c).2.codec? id = some k := by
  obtain ⟨_, _, _, _, hsrc⟩ := register_snd { s with sources := s.sources.add (Source.ofConfig c r) } r
    ⟨s.sources.next⟩ ⟨s.sources.next⟩
  rw [addSource, codec?_of_sources_eq hsrc, codec?, source?, Table.get?_add]
  split
  · next heq => rw [codec?, source?, heq, Table.get?_next] at h; cases h
  · exact h

theorem sound_addEncoder {s : Session} (hs : s.Sound) {x : Encoder}
    (hx : x.Loyal ∧ ∀ id, x.origin.binding = .bound id → s.codec? id = some x.origin.codec) :
    (s.addEncoder x).2.Sound := fun e y hy => by
  rw [encoder?, addEncoder, Table.get?_add] at hy
  split at hy
  · cases hy
    exact hx
  · exact hs e y hy

end Session

namespace Step

theorem labelsWell (x : Step) (hs : x.before.Sound) (hf : x.FromFactory) : x.LabelsWell := by
  obtain ⟨s, a⟩ := x
  have h := carried_labels
  have of_labels : (∃ es, Labels es s (s.perform a).2) → LabelsWell ⟨s, a⟩ :=
    fun ⟨_, hes⟩ => labelsWell_of_labels hs hes
  have aside : (s.perform a).2.journal = s.journal → (s.perform a).2.encoders = s.encoders →
      (s.perform a).2.sources = s.sources → LabelsWell ⟨s, a⟩ := fun hj he hsrc =>
    labelsWell_of_quiet (l := []) hs hj .nil he fun id c hc => by
      rw [after, Session.codec?_of_sources_eq hsrc]; exact hc
  have inSource : ∀ (id : RoutingId) (f : Source → Source), (∀ src, (f src).codec = src.codec) →
      (s.perform a).2 = s.modifySource id f → LabelsWell ⟨s, a⟩ := fun id f hk heq =>
    of_labels ⟨[], heq ▸ .modifySource hs id hk⟩
  cases a with
  | addRegistry | addOutput | addFallback | addRecorder | addObserver | unregister | wantKeyframe
  | collect | subscribe | unsubscribe | receive | dropOutput => exact aside rfl rfl rfl
  | addEncoder e =>
    obtain ⟨f, format, hsuits, hmade⟩ := hf e rfl
    have hev : events ⟨s, .addEncoder e⟩ = [] := Session.eventsSince_eq rfl
    exact ⟨hev ▸ .nil, Session.sound_addEncoder hs (Factory.made_sound hsuits hmade)⟩
  | addSource r c =>
    obtain ⟨es, hj, hp, he, _⟩ := Session.register_snd
      { s with sources := s.sources.add (Source.ofConfig c r) } r ⟨s.sources.next⟩ ⟨s.sources.next⟩
    exact labelsWell_of_quiet hs hj (hp _) he fun id k hk => s.codec?_addSource r c hk
  | register r id source =>
    obtain ⟨es, hj, hp, he, hsrc⟩ := s.register_snd r id source
    refine labelsWell_of_quiet hs hj (hp _) he fun j k hk => ?_
    rw [after, Session.perform, Session.codec?_of_sources_eq hsrc]
    exact hk
  | addHandle id => exact inSource id (fun src => { src with handles := src.handles + 1 }) (fun _ => rfl) rfl
  | consumeKeyframeRequest id => exact inSource id Source.consumeKeyframeRequest (fun _ => rfl) rfl
  | watch id w => exact inSource id (fun src => { src with watcher := w }) (fun _ => rfl) rfl
  | dropHandle id =>
    obtain ⟨hj, he, hc⟩ := s.dropHandle_keeps id
    exact labelsWell_of_quiet (l := []) hs hj .nil he fun j k hk => (hc j).trans hk
  | addPipeline e c o => exact of_labels (Session.labels_addPipeline hs e c o)
  | capture id tags payload now => exact of_labels (Session.labels_capture hs id tags payload now)
  | push id f now => exact of_labels (Session.labels_push hs id f now)
  | take id => exact of_labels (Session.labels_take hs id)
  | requestKeyframe id =>
    obtain ⟨hj, hc, hr, he⟩ := s.requestKeyframe_keeps id
    exact of_labels ⟨[.asked id], .of_encoders_eq hs hj hc hr he (.asked .nil)⟩
  | emit id capture now => exact of_labels (h.emit s id capture now hs)
  | pushRaw id picture t => exact of_labels (h.pushRaw s id picture t hs)
  | addTap id tap => exact of_labels (h.pump s id (fun p => (p.addTap tap).2) (fun _ => rfl) hs)
  | removeTap id tap => exact of_labels (h.pump s id (fun p => p.removeTap tap) (fun _ => rfl) hs)
  | call e c => exact of_labels (h.call s e c hs)
  | dropEncoder e => exact of_labels (h.drop s e hs)
  | attach p id => exact of_labels (h.attach s p id hs)
  | detach p => exact of_labels (h.detach s p hs)
  | hintRate p hint => exact of_labels (h.hintRate s p hint hs)
  | dropPipeline p => exact of_labels (Session.labels_dropPipeline hs p)

end Step

/-! ### Whole runs -/

namespace Session

/-- An encoder for this codec finds the source in its registry, although the source is of another codec. -/
def Misroutes (s : Session) (id : RoutingId) (c : Codec) : Prop :=
  ∃ e x r n, s.encoder? e = some x ∧ x.origin = ⟨.routed r, c⟩ ∧ (s.registry r).find? n = some id ∧
    s.codec? id ≠ some c

theorem sound_empty : ({} : Session).Sound := fun e x hx => by
  obtain ⟨_ | n⟩ := e <;> cases hx

/-- In a sound session only a misrouted frame can get the label of a codec that its source is not of. -/
theorem codec_of_serves {s : Session} (hs : s.Sound) {id : RoutingId} {f : EncodedFrame}
    {i : EmittedImage} (h : s.Serves id f i) :
    ∃ c, i.info.Fits f c ∧ (s.codec? id = some c ∨ s.Misroutes id c) := by
  obtain ⟨e, x, hx, hfit, hr⟩ := h
  refine ⟨x.origin.codec, hfit, ?_⟩
  by_cases hc : s.codec? id = some x.origin.codec
  · exact .inl hc
  · cases hb : x.origin.binding with
    | bound source =>
      rw [hb] at hr
      subst hr
      exact .inl ((hs e x hx).2 source hb)
    | routed r =>
      rw [hb] at hr
      obtain ⟨n, hn⟩ := hr
      exact .inr ⟨e, x, r, n, hx, by rw [← hb], hn, hc⟩

theorem labelsWell_run (actions : List Action) (s : Session) (hs : s.Sound)
    (hf : ∀ x ∈ s.steps actions, x.FromFactory) :
    ∀ x ∈ s.steps actions, x.before.Sound ∧ x.LabelsWell := by
  induction actions generalizing s with
  | nil => simp [steps]
  | cons a rest ih =>
    obtain ⟨hfirst, hrest⟩ := List.forall_mem_cons.mp hf
    have hstep := Step.labelsWell ⟨s, a⟩ hs hfirst
    exact List.forall_mem_cons.mpr ⟨⟨hs, hstep⟩, ih _ hstep.2 hrest⟩

end Session

/-- **Labels of images.**  In every run whose encoders come from factories, each image is presented right
after its frame was taken, with a label that fits the codec of the source the frame was taken from, unless
an encoder for the label's codec is routed to a source of another codec. -/
theorem labelled_unless_misrouted (actions : List Action)
    (hf : ∀ x ∈ ({} : Session).steps actions, x.FromFactory) :
    ∀ x ∈ ({} : Session).steps actions,
      Presents (fun id f i => ∃ c, i.info.Fits f c ∧
        (x.before.codec? id = some c ∨ x.before.Misroutes id c)) x.events := by
  intro x hx
  obtain ⟨hs, hpresents, _⟩ := Session.labelsWell_run actions {} Session.sound_empty hf x hx
  exact hpresents.mono fun _ _ _ hserves => Session.codec_of_serves hs hserves

/-- An H.264 encoder that takes frames from whatever is registered. -/
def routedEncoder : Encoder := .passthrough (Passthrough.make (.routed ⟨1⟩) .h264 {} none)

/-- Sources of different codecs share a registry, and an encoder for the first of them is pulled for a frame
of either. -/
def strayFrame : List Action :=
  [.addRegistry, .addOutput (.collector #[]), .addSource ⟨1⟩ {}, .addSource ⟨1⟩ { codec := .vp8 },
    .addEncoder routedEncoder, .call ⟨1⟩ (.init ⟨.h264, 640, 480, 30, []⟩),
    .call ⟨1⟩ (.connect ⟨⟨1⟩, none⟩),
    .capture ⟨1⟩ { width := 640, height := 480, isKey := true } [0x65] 1,
    .capture ⟨2⟩ { width := 640, height := 480, isKey := true } [0x65] 1,
    .call ⟨1⟩ (.pull { picture := Picture.black 2 2, timestamp := ⟨1, false⟩, source := some ⟨1⟩ } []),
    .call ⟨1⟩ (.pull { picture := Picture.black 2 2, timestamp := ⟨1, false⟩, source := some ⟨2⟩ } [])]

theorem create?_routedEncoder : ∃ (f : Factory) (format : SdpFormat),
    f.Suits (({} : Session).run (strayFrame.take 4)) ∧
      f.create? (({} : Session).run (strayFrame.take 4)).findByCodec format = some routedEncoder := by
  refine ⟨.passthrough { binding := .registry ⟨1⟩ }, .forCodec .h264 .nonInterleaved, ?_, ?_⟩
  · intro id c h
    cases h
  · decide +kernel

theorem fromFactory_strayFrame : ∀ x ∈ ({} : Session).steps strayFrame, x.FromFactory := by
  have other : ∀ (s : Session) (a : Action), (∀ e, a ≠ .addEncoder e) → Step.FromFactory ⟨s, a⟩ :=
    fun _ _ h e he => absurd he (h e)
  simp only [strayFrame, Session.steps, List.forall_mem_cons]
  refine ⟨other _ _ ?_, other _ _ ?_, other _ _ ?_, other _ _ ?_, fun e he => ?_, other _ _ ?_, other _ _ ?_,
    other _ _ ?_, other _ _ ?_, other _ _ ?_, other _ _ ?_, by simp⟩
  case refine_5 =>
    cases he
    exact create?_routedEncoder
  all_goals exact fun _ h => by cases h

theorem labelled_unless_misrouted_strayFrame :
    (∀ x ∈ ({} : Session).steps strayFrame, x.FromFactory) ∧
    ((({} : Session).steps strayFrame).map fun x => (presentedTo ⟨1⟩ x.events).length)
      = [0, 0, 0, 0, 0, 0, 0, 0, 0, 1, 1] ∧
    ∀ x ∈ ({} : Session).steps strayFrame,
      Presents (fun id f i => ∃ c, i.info.Fits f c ∧
        (x.before.codec? id = some c ∨ x.before.Misroutes id c)) x.events :=
  ⟨fromFactory_strayFrame, rfl, labelled_unless_misrouted strayFrame fromFactory_strayFrame⟩

/-- The frame of the second source, which is of VP8, is presented as an H.264 picture. -/
theorem strayFrame_mislabelled :
    (∀ x ∈ ({} : Session).steps strayFrame, x.FromFactory) ∧
    ¬ ∀ x ∈ ({} : Session).steps strayFrame,
      Presents (fun id f i => ∃ c, x.before.codec? id = some c ∧ i.info.Fits f c) x.events := by
  refine ⟨fromFactory_strayFrame, fun h => ?_⟩
  have hlast := h ⟨({} : Session).run (strayFrame.take 10), strayFrame[10]⟩
    (by simp [strayFrame, Session.steps])
  set x : Step := ⟨({} : Session).run (strayFrame.take 10), strayFrame[10]⟩
  obtain ⟨f, i, hev, hcodec⟩ : ∃ f i, x.events = [.taken ⟨2⟩ f, .presented ⟨1⟩ i none] ∧
    i.info.codec = .h264 := ⟨_, _, rfl, rfl⟩
  rw [hev] at hlast
  rcases hlast with _ | _ | _ | _ | hrest | ⟨⟨c, hc, hfit⟩, _⟩
  · cases hrest
  · have hvp8 : x.before.codec? ⟨2⟩ = some .vp8 := rfl
    rw [hvp8, Option.some.injEq] at hc
    rw [hfit.codec, ← hc] at hcodec
    cases hcodec

end EncodedFeed
