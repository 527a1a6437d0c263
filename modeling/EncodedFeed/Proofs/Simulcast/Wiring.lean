import EncodedFeed.Proofs.Lane.Wiring
import EncodedFeed.Session.Groups
import Mathlib.Tactic.Set

/-!
# Wiring a simulcast group

Each layer of a group gets an encoder from its own factory, an output, and a pipeline attached to its source.
The layers are then lanes that have nothing in common but the observer of the group.
-/

namespace EncodedFeed

/-- What a layer is wired to: the format its encoder is made for, the settings, and the output. -/
structure LayerPlan where
  format : SdpFormat
  settings : Settings
  output : Output

namespace Session

/-- Wire a layer. -/
def wireLayer (s : Session) (g : Group) (i : Nat) (plan : LayerPlan) : Option Lane × Session :=
  match g.layers[i]?, g.factory? i with
  | some source, some f =>
    match s.create? (.passthrough f) plan.format with
    | (none, s) => (none, s)
    | (some encoder, s) =>
      let (output, s) := s.addOutput plan.output
      match s.addPipeline encoder plan.settings output with
      | (.error _, s) => (none, s)
      | (.ok pipeline, s) => (some ⟨source, pipeline, encoder, output⟩, (s.attach pipeline source).2)
  | _, _ => (none, s)

/-- Wire layers, the first of which has the given index; all must succeed. -/
def wireLayers (s : Session) (g : Group) (i : Nat) : List LayerPlan → Option (List Lane) × Session
  | [] => (some [], s)
  | plan :: rest =>
    match s.wireLayer g i plan with
    | (none, s) => (none, s)
    | (some a, s) =>
      match s.wireLayers g (i + 1) rest with
      | (none, s) => (none, s)
      | (some lanes, s) => (some (a :: lanes), s)

/-! ### One layer -/

variable {s t : Session} {a b : Lane} {y : Lane.State}

theorem has_addEncoder (h : s.Has b y) (x : Encoder) : (s.addEncoder x).2.Has b y :=
  ⟨h.source, h.pipeline, Table.get?_add_of_some h.encoder x, h.output⟩

theorem has_addOutput (h : s.Has b y) (out : Output) : (s.addOutput out).2.Has b y :=
  ⟨h.source, h.pipeline, h.encoder, output?_addOutput s b.output out h.output⟩

theorem output?_addOutput_self (s : Session) (out : Output) :
    (s.addOutput out).2.output? (s.addOutput out).1 = some out := by
  simp only [output?, addOutput, Table.get?_add, if_true, Option.map_some]

/-- An open source to which nothing listens yet. -/
structure Idle (src : Source) : Prop where
  live : src.closed = false
  running : src.pump.ended = false
  taps : src.pump.taps = []

/-- What the wiring of a layer makes of a session. -/
structure WiresLayer (s t : Session) (a : Lane) (i : Nat) (src : Source) : Prop where
  has : ∃ x, t.Has a x ∧ x.Wired a ∧ x.source.watcher = src.watcher ∧
    x.encoder.layer = some (UInt32.ofNat i)
  others (j : RoutingId) : j ≠ a.source → t.source? j = s.source? j
  lanes (b : Lane) (y : Lane.State) : s.Has b y → b.source ≠ a.source → a.Apart b ∧ t.Has b y
  observers : t.observers = s.observers
  journal : t.journal = s.journal

/-- An encoder made by a factory that is bound to a source. -/
theorem create?_bound {f : PassthroughFactory} {id : RoutingId} {c : Codec} (hf : f.binding = .source id c)
    {format : SdpFormat} {e : Ref .encoder} (h : s.create? (.passthrough f) format = (some e, t)) :
    ∃ p : Passthrough, p.binding = .bound id ∧ p.pinned = f.index ∧
      e = (s.addEncoder (.passthrough p)).1 ∧ t = (s.addEncoder (.passthrough p)).2 := by
  cases hp : f.create? s.findByCodec format with
  | none =>
    simp only [create?, Factory.create?, hp, Option.map_none] at h
    cases h
  | some p =>
    simp only [create?, Factory.create?, hp, Option.map_some, Prod.mk.injEq, Option.some.injEq] at h
    obtain ⟨rfl, rfl⟩ := h
    unfold PassthroughFactory.create? at hp
    split at hp
    · obtain ⟨k, _, rfl⟩ := Option.map_eq_some_iff.mp hp
      exact ⟨_, by simp [Passthrough.make, PassthroughFactory.encoderBinding, hf], rfl, rfl, rfl⟩
    · cases hp

theorem wiresLayer_of_wireLayer {g : Group} {i : Nat} {plan : LayerPlan} {id : RoutingId} {src : Source}
    (hid : g.layers[i]? = some id) (hsrc : s.source? id = some src) (hidle : Idle src)
    (h : s.wireLayer g i plan = (some a, t)) : a.source = id ∧ WiresLayer s t a i src := by
  have hf : g.factory? i = some { binding := .source id g.codec, index := some (UInt32.ofNat i) } := by
    rw [Group.factory?, hid]; rfl
  simp only [wireLayer, hid, hf] at h
  cases hc : s.create? (.passthrough { binding := .source id g.codec, index := some (UInt32.ofNat i) })
    plan.format with
  | mk made s₁ =>
  cases made with
  | none =>
    simp only [hc] at h
    cases h
  | some e =>
    obtain ⟨p, hb, hpin, rfl, rfl⟩ := create?_bound rfl hc
    simp only [hc] at h
    set s₁ := (s.addEncoder (.passthrough p)).2 with hs₁
    set s₂ := (s₁.addOutput plan.output).2 with hs₂
    cases hpl : s₂.addPipeline (s.addEncoder (.passthrough p)).1 plan.settings
      (s₁.addOutput plan.output).1 with
    | mk result u =>
    cases result with
    | error err =>
      simp only [hpl] at h
      cases h
    | ok pl =>
      simp only [hpl, Prod.mk.injEq, Option.some.injEq] at h
      obtain ⟨rfl, rfl⟩ := h
      set a : Lane := ⟨id, pl, (s.addEncoder (.passthrough p)).1, (s₁.addOutput plan.output).1⟩ with ha
      have hsource : s₂.source? a.source = some src := hsrc
      have henc : s₂.encoder? a.encoder = some (.passthrough p) := encoder?_addEncoder_self s _
      have hout : s₂.output? a.output = some plan.output := output?_addOutput_self s₁ _
      obtain ⟨q, hq, hhas⟩ := has_attach hsource henc hout hpl
      have hattach := attaches_of_addPipeline hsource henc hpl
      refine ⟨rfl, ⟨_, hhas, Lane.State.wired_start _ hidle.live hidle.running hidle.taps hb hq, rfl, ?_⟩,
        hattach.others, fun b y hb hne => ?_, hattach.observers, hattach.journal⟩
      · rw [Passthrough.init_ok hq]
        simp [Lane.State.start, Passthrough.connect, hpin]
      · -- an encoder and an output that were there cannot be the new ones
        obtain ⟨slot, hslot, _⟩ := Option.map_eq_some_iff.mp hb.output
        have hencoder : a.encoder ≠ b.encoder := fun heq =>
          Table.ne_next (t := s.encoders) hb.encoder (congrArg Ref.number heq)
        have houtput : a.output ≠ b.output := fun heq =>
          Table.ne_next (t := s.outputs) hslot (congrArg Ref.number heq)
        have hb₂ : s₂.Has b y := has_addOutput (has_addEncoder hb _) _
        obtain ⟨hpipeline, hhas'⟩ := has_attach_of_ne hb₂ hsource henc hpl (Ne.symm hne) hencoder
        exact ⟨⟨Ne.symm hne, hpipeline, hencoder, houtput⟩, hhas'⟩

/-! ### All layers -/

/-- The layers of a group from some index on are lanes in working order, apart from one another; each puts
its index on images, and the group's observer is told of its keyframe requests with that index. -/
structure LaidOut (s : Session) (g : Group) (o : Ref .observer) (i : Nat) (lanes : List Lane) : Prop where
  has (k : Nat) (a : Lane) : lanes[k]? = some a → g.layers[i + k]? = some a.source ∧
    ∃ x, s.Has a x ∧ x.Wired a ∧ x.source.watcher = some ⟨o, some (i + k)⟩ ∧
      x.encoder.layer = some (UInt32.ofNat (i + k))
  apart : lanes.Pairwise Lane.Apart

/-- The layers of a group from some index on are open, nothing listens to them, and an observer watches. -/
def Unwired (s : Session) (g : Group) (o : Ref .observer) (i : Nat) : Prop :=
  ∀ k id, g.layers[i + k]? = some id →
    ∃ src, s.source? id = some src ∧ Idle src ∧ src.watcher = some ⟨o, some (i + k)⟩

theorem laidOut_of_wireLayers {g : Group} {o : Ref .observer} (hnodup : g.layers.Nodup)
    (plans : List LayerPlan) {i : Nat} {lanes : List Lane} {s t : Session} (hidle : s.Unwired g o i)
    (h : s.wireLayers g i plans = (some lanes, t)) :
    t.LaidOut g o i lanes ∧
    (∀ b y, s.Has b y → (∀ k, g.layers[i + k]? ≠ some b.source) → t.Has b y ∧ ∀ a ∈ lanes, a.Apart b) ∧
    t.observers = s.observers ∧ lanes.length = plans.length := by
  induction plans generalizing s i lanes with
  | nil =>
    simp only [wireLayers, Prod.mk.injEq, Option.some.injEq] at h
    obtain ⟨rfl, rfl⟩ := h
    exact ⟨⟨by simp, .nil⟩, fun b y hb _ => ⟨hb, by simp⟩, rfl, rfl⟩
  | cons plan rest ih =>
    cases hone : s.wireLayer g i plan with
    | mk made s₁ =>
    cases made with
    | none =>
      simp only [wireLayers, hone] at h
      cases h
    | some a =>
      cases hmany : s₁.wireLayers g (i + 1) rest with
      | mk made' u =>
      cases made' with
      | none =>
        simp only [wireLayers, hone, hmany] at h
        cases h
      | some lanes' =>
        simp only [wireLayers, hone, hmany, Prod.mk.injEq, Option.some.injEq] at h
        obtain ⟨rfl, rfl⟩ := h
        -- the first layer
        obtain ⟨id, hid⟩ : ∃ id, g.layers[i]? = some id := by
          cases hid : g.layers[i]? with
          | some id => exact ⟨id, rfl⟩
          | none =>
            simp only [wireLayer, hid] at hone
            cases hone
        obtain ⟨src, hsrc, hsi, hwatch⟩ := hidle 0 id hid
        obtain ⟨rfl, hw⟩ := wiresLayer_of_wireLayer hid hsrc hsi hone
        -- those behind it are other sources, so they are untouched
        have hother : ∀ k, g.layers[i + 1 + k]? ≠ some a.source := fun k hk => by
          have hlt : i < g.layers.length := (List.getElem?_eq_some_iff.mp hid).1
          have := (List.getElem?_inj hlt hnodup).mp (hid.trans hk.symm)
          omega
        have hidle' : s₁.Unwired g o (i + 1) := fun k id' hk => by
          have hne : id' ≠ a.source := fun heq => hother k (heq ▸ hk)
          rw [hw.others id' hne]
          have harith : i + 1 + k = i + (k + 1) := by omega
          rw [harith] at hk ⊢
          exact hidle (k + 1) id' hk
        obtain ⟨hlaid, hkeep, hobs, hlen⟩ := ih hidle' hmany
        obtain ⟨x, hx, hwired, hwatch', hlayer⟩ := hw.has
        obtain ⟨hx', hapart⟩ := hkeep a x hx hother
        refine ⟨⟨fun k b hb => ?_, ?_⟩, fun b y hb hne => ?_, hobs.trans hw.observers, ?_⟩
        · cases k with
          | zero =>
            cases hb
            exact ⟨hid, x, hx', hwired, hwatch'.trans hwatch, hlayer⟩
          | succ k =>
            have harith : i + (k + 1) = i + 1 + k := by omega
            rw [harith]
            exact hlaid.has k b hb
        · exact List.pairwise_cons.mpr ⟨fun b hb => (hapart b hb).symm, hlaid.apart⟩
        · obtain ⟨hab, hb₁⟩ := hw.lanes b y hb fun heq => hne 0 (heq ▸ hid)
          obtain ⟨hb₂, hrest⟩ := hkeep b y hb₁ fun k hk => hne (k + 1) (by
            have harith : i + (k + 1) = i + 1 + k := by omega
            rw [harith]
            exact hk)
          exact ⟨hb₂, List.forall_mem_cons.mpr ⟨hab, hrest⟩⟩
        · rw [List.length_cons, hlen, List.length_cons]

/-! ### The group itself -/

/-- A source is made and registered; if its id is in use, a warning is given instead. -/
theorem addSource_eq (s : Session) (r : Ref .registry) (c : SourceConfig) :
    ∃ (registries : Table Registry) (warnings : List Warning), s.addSource r c = (⟨s.sources.next⟩, { s with
      sources := s.sources.add (Source.ofConfig c r)
      registries
      journal := warnings.map Event.warned ++ s.journal }) := by
  unfold addSource register
  dsimp only
  split
  · exact ⟨s.registries, [.alreadyRegistered _], rfl⟩
  · exact ⟨_, [], rfl⟩

/-- New sources are numbered one after the other. -/
theorem addSources_eq (r : Ref .registry) (cs : List SourceConfig) (s : Session) :
    ∃ (registries : Table Registry) (warnings : List Warning),
      s.addSources r cs = ((List.range' s.sources.next cs.length).map RoutingId.mk, { s with
        sources := cs.foldl (fun t c => t.add (Source.ofConfig c r)) s.sources
        registries
        journal := warnings.map Event.warned ++ s.journal }) := by
  induction cs generalizing s with
  | nil => exact ⟨s.registries, [], rfl⟩
  | cons c rest ih =>
    obtain ⟨registries, warnings, hone⟩ := s.addSource_eq r c
    obtain ⟨registries', warnings', hrest⟩ := ih (s.addSource r c).2
    refine ⟨registries', warnings' ++ warnings, ?_⟩
    rw [hone] at hrest
    simp only [addSources, hone, hrest, Table.next_add, List.length_cons, List.range'_succ, List.map_cons,
      List.foldl_cons, List.map_append, List.append_assoc]

/-- An observer that is told of each source by its own name. -/
theorem watch_foldl (o : Ref .observer) (l : List (RoutingId × Nat)) (hnodup : (l.map Prod.fst).Nodup)
    (s : Session) :
    let t := l.foldl (fun s e => s.watch e.1 (some ⟨o, some e.2⟩)) s
    (∀ id, id ∉ l.map Prod.fst → t.source? id = s.source? id) ∧
    (∀ e ∈ l, t.source? e.1
      = (s.source? e.1).map fun src => { src with watcher := some ⟨o, some e.2⟩ }) ∧
    t.observers = s.observers := by
  induction l generalizing s with
  | nil => exact ⟨fun _ _ => rfl, by simp, rfl⟩
  | cons e rest ih =>
    obtain ⟨hnot, hrest⟩ := List.nodup_cons.mp hnodup
    obtain ⟨hout, hin, hobs⟩ := ih hrest (s.watch e.1 (some ⟨o, some e.2⟩))
    have hwatch : ∀ id, (s.watch e.1 (some ⟨o, some e.2⟩)).source? id
        = if e.1 = id then (s.source? id).map fun src => { src with watcher := some ⟨o, some e.2⟩ }
          else s.source? id := fun id => source?_modifySource _ _ _ _
    refine ⟨fun id hid => ?_, fun e' he' => ?_, hobs⟩
    · obtain ⟨hne, hid'⟩ := List.ne_and_not_mem_of_not_mem_cons hid
      rw [List.foldl_cons, hout id hid', hwatch, if_neg (Ne.symm hne)]
    · rcases List.mem_cons.mp he' with rfl | he'
      · rw [List.foldl_cons, hout _ hnot, hwatch, if_pos rfl]
      · have hne : e.1 ≠ e'.1 := fun heq => hnot (heq ▸ List.mem_map_of_mem he')
        rw [List.foldl_cons, hin e' he', hwatch, if_neg hne]

/-- Watching a group changes nothing but its sources. -/
theorem watchGroup_eq (s : Session) (g : Group) (o : Ref .observer) :
    s.watchGroup g o = { s with sources := (s.watchGroup g o).sources } := by
  unfold watchGroup
  induction g.layers.zipIdx generalizing s with
  | nil => rfl
  | cons e rest ih => exact ih (s.watch e.1 (some ⟨o, some e.2⟩))

/-- The observer is told of each source by its place. -/
theorem source?_watchGroup {g : Group} (hnodup : g.layers.Nodup) {k : Nat} {id : RoutingId}
    (hk : g.layers[k]? = some id) (s : Session) (o : Ref .observer) :
    (s.watchGroup g o).source? id
      = (s.source? id).map fun src => { src with watcher := some ⟨o, some k⟩ } := by
  have hfst : g.layers.zipIdx.map Prod.fst = g.layers := List.zipIdx_map_fst 0 g.layers
  have hmem : (id, k) ∈ g.layers.zipIdx := List.mk_mem_zipIdx_iff_getElem?.mpr hk
  exact (watch_foldl o g.layers.zipIdx (hfst.symm ▸ hnodup) s).2.1 (id, k) hmem

section

variable {r : Ref .registry} {base : SourceConfig} {resolutions : List Resolution} {g : Group}

theorem nodup_map_mk {ns : List Nat} (h : ns.Nodup) : (ns.map RoutingId.mk).Nodup := by
  refine List.Pairwise.map RoutingId.mk ?_ h
  intro m n hne heq
  exact hne (congrArg RoutingId.number heq)

/-- **A group that has just been made** has a new source for each resolution, in order. -/
theorem made_of_addGroup (h : s.addGroup r base resolutions = (.ok g, t)) :
    g.layers = (List.range' s.sources.next resolutions.length).map RoutingId.mk ∧
    (∀ k res, resolutions[k]? = some res → t.source? ⟨s.sources.next + k⟩
      = some (Source.ofConfig { base with resolution := res } r)) ∧
    ∃ (sources : Table Source) (registries : Table Registry) (warnings : List Warning),
      t = { s with sources, registries, journal := warnings.map Event.warned ++ s.journal } := by
  unfold addGroup at h
  split at h
  · cases h
  · obtain ⟨registries, warnings, hmade⟩ :=
      addSources_eq r (resolutions.map fun res => { base with resolution := res }) s
    simp only [hmade, Prod.mk.injEq, Except.ok.injEq] at h
    obtain ⟨rfl, rfl⟩ := h
    refine ⟨by rw [List.length_map], fun k res hres => ?_, _, registries, warnings, rfl⟩
    rw [source?, Table.get?_foldl_add, List.getElem?_map, hres]
    rfl

theorem codec_of_addGroup (h : s.addGroup r base resolutions = (.ok g, t)) : g.codec = base.codec := by
  unfold addGroup at h
  split at h
  · cases h
  · cases h
    rfl

/-- **A group that has just been made and watched.** -/
theorem unwired_of_addGroup (h : s.addGroup r base resolutions = (.ok g, t)) (o : Ref .observer) :
    g.layers.Nodup ∧ (t.watchGroup g o).Unwired g o 0 ∧ (t.watchGroup g o).observers = s.observers := by
  obtain ⟨hlayers, hsource, sources, registries, warnings, ht⟩ := made_of_addGroup h
  have hnodup : g.layers.Nodup := hlayers ▸ nodup_map_mk List.nodup_range'
  refine ⟨hnodup, fun k id hk => ?_, ?_⟩
  · rw [Nat.zero_add] at hk ⊢
    have hwatched := source?_watchGroup hnodup hk t o
    rw [hlayers, List.getElem?_map, Option.map_eq_some_iff] at hk
    obtain ⟨n, hn, rfl⟩ := hk
    obtain ⟨hlt, rfl⟩ := List.getElem?_eq_some_iff.mp hn
    rw [List.length_range'] at hlt
    rw [List.getElem_range', Nat.one_mul] at hwatched ⊢
    rw [hsource k _ (List.getElem?_eq_getElem hlt)] at hwatched
    exact ⟨_, hwatched, ⟨rfl, rfl, rfl⟩, rfl⟩
  · rw [watchGroup_eq, ht]

end

end Session

end EncodedFeed
