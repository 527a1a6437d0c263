import EncodedFeed.Proofs.Encoder.Transparency
import EncodedFeed.Proofs.Registry.Views
import EncodedFeed.Proofs.Session.Room
import EncodedFeed.Proofs.Simulation.Course

/-!
# Building the layers of a simulation

A simulation begins with an empty session, so all its objects are numbered by layers.  The sources come first, with
the group (`built_addGroup`), and then each layer gets its encoder, output and pipeline (`built_addLayer`), which
cannot fail.  In the end all layers stand before their first frame (`built_addLayers`).
-/

namespace EncodedFeed

theorem Resolution.scaledDown_ne_zero (r : Resolution) (factor : UInt32) :
    (r.scaledDown factor).width ≠ 0 ∧ (r.scaledDown factor).height ≠ 0 := by
  have hmax : ∀ a : UInt32, max a 1 ≠ 0 := by
    intro a
    show (if a ≤ 1 then 1 else a) ≠ 0
    split
    · decide
    · next hgt =>
      rintro rfl
      exact hgt (by decide)
  exact ⟨hmax _, hmax _⟩

/-- Pixels that are a word of 32 bits still are one when there are fewer of them. -/
theorem Resolution.area_scaledDown_lt {r : Resolution} (h : r.area < 2 ^ 32) (factor : UInt32) :
    (r.scaledDown factor).area < 2 ^ 32 := by
  have hle : ∀ a : UInt32, (max (a / max factor 1) 1).toNat ≤ max a.toNat 1 := by
    intro a
    rw [toNat_max_one, UInt32.toNat_div]
    exact max_le_max_right 1 (Nat.div_le_self _ _)
  calc (r.scaledDown factor).area ≤ max r.width.toNat 1 * max r.height.toNat 1 := Nat.mul_le_mul (hle _) (hle _)
    _ < 2 ^ 32 := hasPicture_of_area h

theorem Group.length_resolutionsBelow (top : Resolution) (n : Nat) : (resolutionsBelow top n).length = n := by
  rw [resolutionsBelow, List.length_map, List.length_reverse, List.length_range]

theorem Group.getElem?_resolutionsBelow (top : Resolution) {n k : Nat} (h : k < n) :
    (resolutionsBelow top n)[k]? = some (top.scaledDown (1 <<< UInt32.ofNat (min (n - 1 - k) 16))) := by
  have hrange : ((List.range n).reverse)[k]? = some (n - 1 - k) := by
    rw [List.getElem?_reverse (by rwa [List.length_range]), List.length_range, List.getElem?_range (by omega)]
  rw [resolutionsBelow, List.getElem?_map, hrange, Option.map_some]

namespace Simulation

variable {x : Setup} {k l n : Nat} {due : Bool} {s t : Session} {y : Lane.State}

/-- The source of a layer that nothing listens to yet. -/
def newSource (x : Setup) (l : Nat) : Source :=
  { Source.ofConfig { x.source with resolution := resolution x l } ⟨1⟩ with watcher := some ⟨audience, some l⟩ }

/-- A layer stays where it is when its lane does and nobody is told of anything. -/
theorem Course.of_has (h : Course x l n due s y) (hhas : t.Has (lane l) y) (hjournal : t.journal = s.journal)
    (hobservers : t.observers = s.observers) : Course x l n due t y where
  isLayer := ⟨hhas, h.isLayer.wired, h.isLayer.watcher, h.isLayer.layer⟩
  clear := h.clear
  due := h.due
  stats := h.stats
  output := h.output
  told := by
    rw [Session.told, hobservers]
    exact h.told
  entered := by
    rw [hjournal]
    exact h.entered

/-- A layer that has just been built stands before its first frame. -/
theorem course_start {p q : Passthrough} {settings : Settings} (hbinding : p.binding = .bound (lane l).source)
    (hpinned : p.pinned = some (UInt32.ofNat l)) (hq : p.init settings = .ok q)
    (hhas : t.Has (lane l) (Lane.State.start (lane l) (newSource x l) q (.collector #[])))
    (htold : t.told audience = []) (hentered : enteredInto (lane l).source t.journal.reverse = []) :
    Course x l 0 false t (Lane.State.start (lane l) (newSource x l) q (.collector #[])) where
  isLayer := by
    refine ⟨hhas, Lane.State.wired_start _ rfl rfl rfl hbinding hq, rfl, ?_⟩
    rw [Passthrough.init_ok hq]
    show (p.pinned <|> settings.matchingStream?) = _
    rw [hpinned]
    rfl
  clear := by
    refine ⟨rfl, ?_, trivial⟩
    rw [Passthrough.init_ok hq]
    rfl
  due := rfl
  stats := rfl
  output := ⟨#[], rfl, rfl⟩
  told := by
    rw [htold, requestsBefore, Nat.count_zero]
    rfl
  entered := hentered

/-- The first `k` layers have been built, the others have their sources. -/
structure Built (x : Setup) (k : Nat) (s : Session) : Prop where
  outputs : s.outputs.next = k + 1
  encoders : s.encoders.next = k + 1
  pipelines : s.pipelines.next = k + 1
  observer : s.observers.get? audience.number = some #[]
  entered (id : RoutingId) : enteredInto id s.journal.reverse = []
  layer (l : Nat) : l < k → ∃ y, Course x l 0 false s y
  source (l : Nat) : k ≤ l → l < x.layers → s.source? (lane l).source = some (newSource x l)
  /-- Nothing has been stamped yet. -/
  dial (l : Nat) : l < x.layers → s.dial? (lane l).source = some (x.source.warnDepth, {})

/-- The encoder of a layer. -/
def passthrough (x : Setup) (l : Nat) : Passthrough :=
  Passthrough.make (.bound (lane l).source) x.source.codec x.encoder (some (UInt32.ofNat l))

/-- The encoder of a layer can be set up. -/
theorem init_passthrough (x : Setup) (streams : List SimulcastStream) (l : Nat) :
    ∃ q, (passthrough x l).init (settings x streams (resolution x l)) = .ok q := by
  obtain ⟨hwidth, hheight⟩ := x.source.resolution.scaledDown_ne_zero
    (1 <<< UInt32.ofNat (min (x.layers - 1 - l) 16))
  exact Passthrough.init_of_valid hwidth hheight rfl

/-- A group has the codec of a simulation and the sources of its lanes. -/
structure Suits (x : Setup) (g : Group) : Prop where
  codec : g.codec = x.source.codec
  layers : g.layers = (List.range x.layers).map fun l => (lane l).source

theorem Suits.layer {g : Group} (h : Suits x g) (hl : l < x.layers) : g.layers[l]? = some (lane l).source := by
  rw [h.layers, List.getElem?_map, List.getElem?_range hl, Option.map_some]

/-- **No layer is without a factory, and none refuses the codec of the group.** -/
theorem createEncoder_eq {g : Group} (h : Suits x g) (hk : k < x.layers) (s : Session) :
    createEncoder x g k s = (.ok ⟨s.encoders.next⟩, (s.addEncoder (.passthrough (passthrough x k))).2) := by
  have hfactory : g.factory? k
      = some { binding := .source (lane k).source x.source.codec, index := some (UInt32.ofNat k) } := by
    rw [Group.factory?, h.layer hk, h.codec, Option.map_some]
  have hmade : s.create? (.passthrough {
      binding := .source (lane k).source x.source.codec, config := x.encoder, index := some (UInt32.ofNat k) })
      (SdpFormat.forCodec x.source.codec x.encoder.mode)
        = (some ⟨s.encoders.next⟩, (s.addEncoder (.passthrough (passthrough x k))).2) :=
    PassthroughFactory.create?_own rfl _
  rw [createEncoder, hfactory]
  dsimp only
  rw [hmade]

/-- What building a layer comes to if its pipeline can be made. -/
theorem addLayer_eq {g : Group} {streams : List SimulcastStream} {src : Source} {pl : Ref .pipeline} (h : Suits x g)
    (hk : k < x.layers) (hsource : s.source? (lane k).source = some src)
    (hadd : ((s.addEncoder (.passthrough (passthrough x k))).2.addOutput (.collector #[])).2.addPipeline
      ⟨s.encoders.next⟩ (settings x streams src.resolution) ⟨s.outputs.next⟩ = (.ok pl, t)) :
    addLayer x g streams k (lane k).source s = (.ok {
      index := k, source := (lane k).source, resolution := src.resolution, output := ⟨s.outputs.next⟩
      pipeline := pl }, (t.attach pl (lane k).source).2) := by
  have hthere : (s.addEncoder (.passthrough (passthrough x k))).2.source? (lane k).source = some src := hsource
  rw [addLayer, createEncoder_eq h hk]
  dsimp only
  rw [hthere]
  dsimp only [Option.map_some, Option.getD_some]
  rw [show ((s.addEncoder (.passthrough (passthrough x k))).2.addOutput (.collector #[])).1 = ⟨s.outputs.next⟩ from rfl,
    hadd]

/-- **The next layer is built.** -/
theorem built_addLayer {g : Group} (streams : List SimulcastStream) (hg : Suits x g) (hk : k < x.layers)
    (h : Built x k s) :
    ∃ t, addLayer x g streams k (lane k).source s = (.ok (layerAt x 0 k), t) ∧ Built x (k + 1) t := by
  obtain ⟨q, hq⟩ := init_passthrough x streams k
  set p := passthrough x k with hp
  set s₁ := (s.addOutput (.collector #[])).2 with hs₁
  set s₂ := (s₁.addEncoder (.passthrough p)).2 with hs₂
  have hsource : s₂.source? (lane k).source = some (newSource x k) := h.source k (Nat.le_refl k) hk
  have houtput : (⟨s.outputs.next⟩ : Ref .output) = (lane k).output := congrArg Ref.mk h.outputs
  have hencoder : (⟨s.encoders.next⟩ : Ref .encoder) = (lane k).encoder := congrArg Ref.mk h.encoders
  have hpipeline : (⟨s₁.pipelines.next⟩ : Ref .pipeline) = (lane k).pipeline := congrArg Ref.mk h.pipelines
  have hout : s₂.output? (lane k).output = some (.collector #[]) :=
    houtput ▸ s.output?_addOutput_self (.collector #[])
  have henc : s₂.encoder? (lane k).encoder = some (.passthrough p) :=
    hencoder ▸ s₁.encoder?_addEncoder_self (.passthrough p)
  -- the pipeline can be made
  obtain ⟨u, hadd⟩ : ∃ u, s₂.addPipeline (lane k).encoder (settings x streams (resolution x k)) (lane k).output
      = (.ok (lane k).pipeline, u) := by
    have haround : s₁.pipelineAround (.passthrough p) (settings x streams (resolution x k)) (lane k).output = _ :=
      Session.pipelineAround_of_calls (y := .passthrough q)
        (z := .passthrough (q.connect ⟨(lane k).output, some ⟨s₁.pipelines.next⟩⟩))
        (fun t e ht => by simp only [Session.call, ht, Session.callPassthrough, hq])
        (fun t e ht => by simp only [Session.call, ht, Session.callPassthrough])
    have hnew : (s₁.addEncoder (.passthrough p)).1 = (lane k).encoder := hencoder
    rw [Session.pipelineAround, hnew, hpipeline] at haround
    exact ⟨_, haround⟩
  have hattach := Session.attaches_of_addPipeline hsource henc hadd
  obtain ⟨q', hq', hhas⟩ := Session.has_attach hsource henc hout hadd
  set t := (u.attach (lane k).pipeline (lane k).source).2 with ht
  have htold : t.told audience = [] := by
    rw [Session.told, hattach.observers]
    show ((s.observers.get? audience.number).map Array.toList).getD [] = []
    rw [h.observer]
    rfl
  have hentered : ∀ id, enteredInto id t.journal.reverse = [] := by
    intro id
    rw [hattach.journal]
    exact h.entered id
  refine ⟨t, ?_, ?_, ?_, ?_, ?_, hentered, fun l hl => ?_, fun l hl hlt => ?_, fun l hl => ?_⟩
  · rw [← hencoder, ← houtput] at hadd
    rw [addLayer_eq hg hk (h.source k (Nat.le_refl k) hk) hadd, houtput]
    rfl
  · rw [hattach.outputs]
    show (s.outputs.add _).next = _
    rw [Table.next_add, h.outputs]
  · rw [hattach.encoders]
    show (s.encoders.add _).next = _
    rw [Table.next_add, h.encoders]
  · rw [hattach.pipelines]
    show s.pipelines.next + 1 = _
    rw [h.pipelines]
  · rw [hattach.observers]
    exact h.observer
  · rcases Nat.lt_succ_iff_lt_or_eq.mp hl with hlt | rfl
    · obtain ⟨y, hy⟩ := h.layer l hlt
      have hapart := apart_lane (Nat.ne_of_gt hlt)
      have hbefore : s₂.Has (lane l) y := Session.has_addEncoder (Session.has_addOutput hy.isLayer.has _) _
      have hafter := (Session.has_attach_of_ne hbefore hsource henc hadd hapart.source hapart.encoder).2
      exact ⟨y, hy.of_has hafter hattach.journal hattach.observers⟩
    · exact ⟨_, course_start rfl rfl hq' hhas htold (hentered _)⟩
  · rw [hattach.others _ (apart_lane (Nat.ne_of_gt hl)).source]
    exact h.source l (Nat.le_of_succ_le hl) hlt
  · by_cases heq : l = k
    · subst heq
      exact congrArg (Option.map Source.dial) hhas.source
    · exact (congrArg (Option.map Source.dial) (hattach.others _ (apart_lane heq).source)).trans (h.dial l hl)

/-- All layers are built, beginning with some that are there. -/
theorem built_addLayers {g : Group} (streams : List SimulcastStream) (hg : Suits x g) (m : Nat) (hm : k + m = x.layers)
    (h : Built x k s) :
    ∃ t, addLayers x g streams k ((List.range' k m).map fun l => (lane l).source) s
        = (.ok ((List.range' k m).map (layerAt x 0)), t) ∧ Built x x.layers t := by
  induction m generalizing k s with
  | zero =>
    obtain rfl : k = x.layers := hm
    exact ⟨s, rfl, h⟩
  | succ m ih =>
    have hk : k < x.layers := by omega
    obtain ⟨t, hone, ht⟩ := built_addLayer streams hg hk h
    obtain ⟨u, hmany, hu⟩ := ih (by omega) ht
    refine ⟨u, ?_, hu⟩
    rw [List.range'_succ, List.map_cons, List.map_cons, addLayers, hone]
    dsimp only
    rw [hmany]

/-! ### The group -/

/-- Sources that are numbered from one on are those of the lanes. -/
theorem map_mk_range' (n : Nat) :
    (List.range' 1 n).map RoutingId.mk = (List.range n).map fun l => (lane l).source := by
  have hshift : List.range' 1 n = (List.range' 0 n).map (1 + ·) := (List.map_add_range' 0 n 1).symm
  rw [hshift, List.map_map, List.range_eq_range']
  exact List.map_congr_left fun l _ => congrArg RoutingId.mk (Nat.add_comm 1 l)

/-- A group with a layer at least can be made, if the placeholders are not too large. -/
theorem exists_addGroup (hx : 0 < x.layers) (hplaceholder : x.source.placeholder.HasPicture) (s : Session)
    (r : Ref .registry) :
    ∃ g t, s.addGroup r x.source (Group.resolutionsBelow x.source.resolution x.layers) = (.ok g, t) ∧
      s.addGroup? r x.source (Group.resolutionsBelow x.source.resolution x.layers) = some (.ok g, t) := by
  have hne : Group.resolutionsBelow x.source.resolution x.layers ≠ [] := by
    intro hnil
    have hlength := Group.length_resolutionsBelow x.source.resolution x.layers
    rw [hnil, List.length_nil] at hlength
    exact absurd hlength (Nat.ne_of_lt hx)
  obtain ⟨g, t, hmade⟩ : ∃ g t,
      s.addGroup r x.source (Group.resolutionsBelow x.source.resolution x.layers) = (.ok g, t) := by
    rw [Session.addGroup, if_neg hne]
    exact ⟨_, _, rfl⟩
  refine ⟨g, t, hmade, ?_⟩
  rw [Session.addGroup?_eq, if_pos (.inr hplaceholder), hmade]

/-- **The group of a simulation**, in an empty session with a registry.  Its sources are those of the layers' lanes;
once they are watched nothing has been built and nothing is missing. -/
theorem built_addGroup {g : Group} (h : ({} : Session).addRegistry.2.addGroup ⟨1⟩ x.source
      (Group.resolutionsBelow x.source.resolution x.layers) = (.ok g, t)) :
    Suits x g ∧ t.addObserver.1 = audience ∧ Built x 0 (t.addObserver.2.watchGroup g audience) := by
  obtain ⟨hlayers, hsource, sources, registries, warnings, ht⟩ := Session.made_of_addGroup h
  have hnodup : g.layers.Nodup := hlayers ▸ Session.nodup_map_mk List.nodup_range'
  have hlanes : g.layers = (List.range x.layers).map fun l => (lane l).source := by
    rw [← map_mk_range', ← Group.length_resolutionsBelow x.source.resolution x.layers]
    exact hlayers
  -- but for sources, registrations and warnings the session is empty still
  obtain ⟨houtputs, hencoders, hpipelines, hobservers, hjournal⟩ :
      t.outputs = {} ∧ t.encoders = {} ∧ t.pipelines = {} ∧ t.observers = {} ∧
        t.journal = warnings.map Event.warned := by
    rw [ht]
    exact ⟨rfl, rfl, rfl, rfl, List.append_nil _⟩
  have hwatched := Session.watchGroup_eq t.addObserver.2 g audience
  have hsources : ∀ l, l < x.layers →
      (t.addObserver.2.watchGroup g audience).source? (lane l).source = some (newSource x l) := by
    intro l hl
    have hlane : g.layers[l]? = some (lane l).source := by
      rw [hlanes, List.getElem?_map, List.getElem?_range hl, Option.map_some]
    have hnew := hsource l (resolution x l) (Group.getElem?_resolutionsBelow x.source.resolution hl)
    have hid : (⟨1 + l⟩ : RoutingId) = (lane l).source := congrArg RoutingId.mk (Nat.add_comm 1 l)
    rw [Session.source?_watchGroup hnodup hlane, ← hid]
    exact congrArg (Option.map _) hnew
  refine ⟨⟨Session.codec_of_addGroup h, hlanes⟩, ?_, ?_, ?_, ?_, ?_, fun id => ?_,
    fun l hl => absurd hl (Nat.not_lt_zero l), fun l _ hl => hsources l hl,
    fun l hl => congrArg (Option.map Source.dial) (hsources l hl)⟩
  · show (⟨t.observers.next⟩ : Ref .observer) = audience
    rw [hobservers]
    rfl
  · exact (congrArg (·.outputs.next) hwatched).trans (congrArg Table.next houtputs)
  · exact (congrArg (·.encoders.next) hwatched).trans (congrArg Table.next hencoders)
  · exact (congrArg (·.pipelines.next) hwatched).trans (congrArg Table.next hpipelines)
  · refine (congrArg (·.observers.get? audience.number) hwatched).trans ?_
    show (t.observers.add #[]).get? 1 = some #[]
    rw [hobservers]
    rfl
  · have hwarned : (t.addObserver.2.watchGroup g audience).journal = warnings.map Event.warned :=
      (congrArg Session.journal hwatched).trans hjournal
    rw [hwarned]
    refine List.filterMap_eq_nil_iff.mpr fun e he => ?_
    obtain ⟨w, -, rfl⟩ := List.mem_map.mp (List.mem_reverse.mp he)
    rfl

end Simulation

end EncodedFeed
