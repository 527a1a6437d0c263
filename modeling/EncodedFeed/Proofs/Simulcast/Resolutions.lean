import EncodedFeed.Proofs.Session.Labels
import EncodedFeed.Proofs.Session.Lasting
import EncodedFeed.Proofs.Simulation.Layers
import EncodedFeed.Proofs.Words

/-!
# The resolutions of a group

A group is made of layers that are halved down from one resolution.  An encoder may be told which layer it is for, or
may find out from its settings: it takes the first stream with its own dimensions.  The two agree as long as no two
layers are of one size, and this is so while the larger of the two dimensions can be halved (`halved_lt`), whatever
becomes of the smaller one.
-/

namespace EncodedFeed

/-! ### Halving -/

/-- A dimension halved `k` times, never below one. -/
def halved (a k : Nat) : Nat := max (a / 2 ^ k) 1

/-- Rounding and the floor do not add up: halving once more is all the same as halving the original. -/
theorem halved_succ (a k : Nat) : halved a (k + 1) = max (halved a k / 2) 1 := by
  unfold halved
  rw [Nat.pow_succ, ← Nat.div_div_eq_div_mul]
  omega

theorem halved_le (a : Nat) {k m : Nat} (h : k ≤ m) : halved a m ≤ halved a k := by
  have hpow : 2 ^ k ≤ 2 ^ m := Nat.pow_le_pow_right (by omega) h
  have hdiv : a / 2 ^ m ≤ a / 2 ^ k := Nat.div_le_div_left hpow (Nat.two_pow_pos k)
  unfold halved
  omega

/-- As long as a dimension can be halved, it gets smaller. -/
theorem halved_lt {a k m : Nat} (h : k < m) (ha : 2 ^ m ≤ a) : halved a m < halved a k := by
  have hpow : 2 ^ (k + 1) ≤ 2 ^ m := Nat.pow_le_pow_right (by omega) h
  have hnext : halved a m ≤ halved a (k + 1) := halved_le a h
  have hbig : 2 ≤ a / 2 ^ k := by
    rw [Nat.le_div_iff_mul_le (Nat.two_pow_pos k), ← Nat.pow_succ']
    omega
  rw [halved_succ] at hnext
  unfold halved at hnext ⊢
  omega

theorem toNat_shift {k : Nat} (h : k ≤ 16) : (1 <<< UInt32.ofNat k : UInt32).toNat = 2 ^ k := by
  have hall : ∀ k : Fin 17, (1 <<< UInt32.ofNat k : UInt32).toNat = 2 ^ k.val := by decide
  exact hall ⟨k, by omega⟩

theorem toNat_div_shift (a : UInt32) {k : Nat} (h : k ≤ 16) :
    (max (a / max (1 <<< UInt32.ofNat k) 1) 1).toNat = halved a.toNat k := by
  have hpos : 1 ≤ 2 ^ k := Nat.one_le_two_pow
  rw [toNat_max_one, UInt32.toNat_div, toNat_max_one, toNat_shift h, Nat.max_eq_left hpos]
  rfl

namespace Resolution

/-- Two resolutions with equal numbers of columns and of rows are one. -/
theorem eq_of_toNat {a b : Resolution} (hwidth : a.width.toNat = b.width.toNat)
    (hheight : a.height.toNat = b.height.toNat) : a = b := by
  cases a
  cases b
  simp only [mk.injEq]
  exact ⟨UInt32.toNat_inj.mp hwidth, UInt32.toNat_inj.mp hheight⟩

/-- The sizes of a resolution that is scaled down by a power of two. -/
theorem toNat_scaledDown (r : Resolution) {k : Nat} (h : k ≤ 16) :
    (r.scaledDown (1 <<< UInt32.ofNat k)).width.toNat = halved r.width.toNat k ∧
      (r.scaledDown (1 <<< UInt32.ofNat k)).height.toNat = halved r.height.toNat k :=
  ⟨toNat_div_shift r.width h, toNat_div_shift r.height h⟩

/-- Scaling down by two once more is scaling down by the next power of two. -/
theorem scaledDown_succ (r : Resolution) {k : Nat} (h : k + 1 ≤ 16) :
    (r.scaledDown (1 <<< UInt32.ofNat k)).scaledDown 2 = r.scaledDown (1 <<< UInt32.ofNat (k + 1)) := by
  obtain ⟨hwidth, hheight⟩ := r.toNat_scaledDown (Nat.le_of_succ_le h)
  obtain ⟨hwidth', hheight'⟩ := r.toNat_scaledDown h
  obtain ⟨htwice, htwice'⟩ := (r.scaledDown (1 <<< UInt32.ofNat k)).toNat_scaledDown (k := 1) (by omega)
  have hpow : ∀ a, halved a 1 = max (a / 2) 1 := fun a => rfl
  apply eq_of_toNat
  · rw [hwidth', halved_succ, ← hwidth, ← hpow]
    exact htwice
  · rw [hheight', halved_succ, ← hheight, ← hpow]
    exact htwice'

end Resolution

/-! ### Layers -/

/-- The stream of a layer, as it is negotiated. -/
def Resolution.stream (r : Resolution) : SimulcastStream := { width := r.width, height := r.height }

namespace Group

variable {top lower upper res : Resolution} {n i j : Nat}

theorem lt_of_resolution (h : (resolutionsBelow top n)[i]? = some res) : i < n := by
  have hlt := (List.getElem?_eq_some_iff.mp h).1
  rwa [length_resolutionsBelow] at hlt

/-- A layer is as many halvings below the top as there are layers above it. -/
theorem resolution_eq (hn : n ≤ 17) (h : (resolutionsBelow top n)[i]? = some res) :
    res = top.scaledDown (1 <<< UInt32.ofNat (n - 1 - i)) := by
  have hi := lt_of_resolution h
  have hcap : min (n - 1 - i) 16 = n - 1 - i := Nat.min_eq_left (by omega)
  rw [getElem?_resolutionsBelow top hi, hcap] at h
  exact (Option.some.inj h).symm

theorem toNat_resolution (hn : n ≤ 17) (h : (resolutionsBelow top n)[i]? = some res) :
    res.width.toNat = halved top.width.toNat (n - 1 - i) ∧
      res.height.toNat = halved top.height.toNat (n - 1 - i) := by
  have hi := lt_of_resolution h
  rw [resolution_eq hn h]
  exact top.toNat_scaledDown (by omega)

/-- **Layers grow.**  A higher layer is no smaller in either dimension, and larger in one that can be halved often
enough. -/
theorem lt_resolution (hn : n ≤ 17) (htop : 2 ^ (n - 1) ≤ max top.width.toNat top.height.toNat) (hij : i < j)
    (hi : (resolutionsBelow top n)[i]? = some lower) (hj : (resolutionsBelow top n)[j]? = some upper) :
    lower.width ≤ upper.width ∧ lower.height ≤ upper.height ∧
      (lower.width < upper.width ∨ lower.height < upper.height) := by
  obtain ⟨hlower, hlower'⟩ := toNat_resolution hn hi
  obtain ⟨hupper, hupper'⟩ := toNat_resolution hn hj
  have hjn := lt_of_resolution hj
  have hsteps : n - 1 - j < n - 1 - i := by omega
  have hpow : 2 ^ (n - 1 - i) ≤ 2 ^ (n - 1) := Nat.pow_le_pow_right (by omega) (by omega)
  simp only [UInt32.le_iff_toNat_le, UInt32.lt_iff_toNat_lt, hlower, hlower', hupper, hupper']
  refine ⟨halved_le _ (Nat.le_of_lt hsteps), halved_le _ (Nat.le_of_lt hsteps), ?_⟩
  rcases Nat.le_total top.width.toNat top.height.toNat with hle | hle
  · rw [Nat.max_eq_right hle] at htop
    exact .inr (halved_lt hsteps (Nat.le_trans hpow htop))
  · rw [Nat.max_eq_left hle] at htop
    exact .inl (halved_lt hsteps (Nat.le_trans hpow htop))

theorem resolution_succ (hn : n ≤ 17) (hi : (resolutionsBelow top n)[i]? = some lower)
    (hj : (resolutionsBelow top n)[i + 1]? = some upper) : lower = upper.scaledDown 2 := by
  have hlt := lt_of_resolution hj
  have hsteps : n - 1 - i = n - 1 - (i + 1) + 1 := by omega
  rw [resolution_eq hn hi, resolution_eq hn hj, hsteps]
  exact (top.scaledDown_succ (by omega)).symm

/-- The top layer is the base, but for dimensions of zero. -/
theorem resolution_top (h1 : 1 ≤ n) :
    (resolutionsBelow top n).getLast? = some ⟨max top.width 1, max top.height 1⟩ := by
  have hzero : n - 1 - (n - 1) = 0 := Nat.sub_self _
  rw [List.getLast?_eq_getElem?, length_resolutionsBelow, getElem?_resolutionsBelow top (by omega), hzero]
  have hone : max (1 <<< UInt32.ofNat (min 0 16)) 1 = (1 : UInt32) := by decide
  simp only [Resolution.scaledDown, hone]
  congr 2
  · exact congrArg (max · 1) (UInt32.toNat_inj.mp (by rw [UInt32.toNat_div]; exact Nat.div_one _))
  · exact congrArg (max · 1) (UInt32.toNat_inj.mp (by rw [UInt32.toNat_div]; exact Nat.div_one _))

/-- **The first stream of a layer's size is the layer's own.** -/
theorem findIdx?_stream (hn : n ≤ 17) (htop : 2 ^ (n - 1) ≤ max top.width.toNat top.height.toNat)
    (hi : (resolutionsBelow top n)[i]? = some res) :
    ((resolutionsBelow top n).map Resolution.stream).findIdx? (fun t => t.width == res.width && t.height == res.height)
      = some i := by
  obtain ⟨hlt, hget⟩ := List.getElem?_eq_some_iff.mp hi
  rw [List.findIdx?_eq_some_iff_getElem]
  refine ⟨by rwa [List.length_map], ?_, fun j hj => ?_⟩
  · rw [List.getElem_map, hget]
    simp only [Resolution.stream, BEq.rfl, Bool.and_self]
  · -- a layer below is smaller
    have hbelow : (resolutionsBelow top n)[j]? = some (resolutionsBelow top n)[j] :=
      List.getElem?_eq_getElem (Nat.lt_trans hj hlt)
    obtain ⟨-, -, hless⟩ := lt_resolution hn htop hj hbelow hi
    rw [List.getElem_map, Bool.and_eq_true, not_and_or]
    rcases hless with hless | hless
    · left
      intro heq
      exact UInt32.ne_of_lt hless (eq_of_beq heq)
    · right
      intro heq
      exact UInt32.ne_of_lt hless (eq_of_beq heq)

end Group

/-! ### Groups -/

namespace Session

variable {s t : Session} {r : Ref .registry} {base : SourceConfig} {resolutions : List Resolution} {g : Group}

/-- The natures of a new group's sources, in the order of the layers. -/
theorem natures_of_addGroup (h : s.addGroup r base resolutions = (.ok g, t)) :
    (g.layers.map fun id => (t.source? id).map Source.nature) = resolutions.map fun res => some (base.codec, res) := by
  obtain ⟨hlayers, hsource, -⟩ := made_of_addGroup h
  refine List.ext_getElem? fun k => ?_
  rw [hlayers, List.map_map, List.getElem?_map, List.getElem?_map]
  by_cases hk : k < resolutions.length
  · have hres : resolutions[k]? = some resolutions[k] := List.getElem?_eq_getElem hk
    rw [List.getElem?_range' hk, hres, Option.map_some, Option.map_some, Function.comp_apply, Nat.one_mul,
      hsource k _ hres]
    rfl
  · have hover : resolutions.length ≤ k := Nat.le_of_not_lt hk
    rw [List.getElem?_eq_none (by rwa [List.length_range']), List.getElem?_eq_none hover]
    rfl

/-- The streams of a group are its resolutions, as long as its sources are what they were. -/
theorem streams_eq {ids : List RoutingId} {c : Codec}
    (h : (ids.map fun id => (t.source? id).map Source.nature) = resolutions.map fun res => some (c, res)) :
    (ids.filterMap fun id => (t.source? id).map fun src =>
      ({ width := src.resolution.width, height := src.resolution.height } : SimulcastStream))
      = resolutions.map Resolution.stream := by
  induction ids generalizing resolutions with
  | nil =>
    rw [List.map_nil, eq_comm, List.map_eq_nil_iff] at h
    rw [h]
    rfl
  | cons id rest ih =>
    obtain _ | ⟨res, later⟩ := resolutions
    · cases h
    · rw [List.map_cons, List.map_cons, List.cons.injEq] at h
      obtain ⟨hone, hrest⟩ := h
      obtain ⟨src, hsrc, hnature⟩ := Option.map_eq_some_iff.mp hone
      have hres : src.resolution = res := congrArg Prod.snd hnature
      rw [List.filterMap_cons, hsrc, Option.map_some, hres, ih hrest]
      rfl

/-- Whatever is done after a group has been made, its streams stay. -/
theorem streams_of_addGroup (h : s.addGroup r base resolutions = (.ok g, t)) (later : List Action) :
    (t.run later).streams g = resolutions.map Resolution.stream := by
  have hmade := natures_of_addGroup h
  refine streams_eq (c := base.codec) ?_
  rw [← hmade]
  refine List.map_congr_left fun id hid => ?_
  have hin := List.mem_map_of_mem (f := fun id => (t.source? id).map Source.nature) hid
  rw [hmade] at hin
  obtain ⟨res, -, hres⟩ := List.mem_map.mp hin
  rw [← hres]
  exact (Lasting.run later t).source id _ hres.symm

end Session

/-- The factory of a layer makes encoders of its codec, whose layer is fixed. -/
theorem Group.create?_layer {g : Group} {i : Nat} (hi : i < g.layers.length)
    (find : Ref .registry → String → Option RoutingId) {format : SdpFormat} (hname : Codec.sameName g.codec.sdpName format.name = true) :
    ∃ f p, g.factory? i = some f ∧ f.create? find format = some p ∧ p.codec = g.codec ∧
      p.pinned = some (UInt32.ofNat i) ∧ p.layer = some (UInt32.ofNat i) := by
  have hlayer : g.layers[i]? = some g.layers[i] := List.getElem?_eq_getElem hi
  have hcodec : format.codec? = some g.codec := Codec.ofSdpName?_eq_some_iff.mpr hname
  refine ⟨{ binding := .source g.layers[i] g.codec, index := some (UInt32.ofNat i) },
    Passthrough.make (.bound g.layers[i]) g.codec {} (some (UInt32.ofNat i)), ?_, ?_, rfl, rfl, rfl⟩
  · rw [factory?, hlayer, Option.map_some]
  · rw [PassthroughFactory.create?, if_pos, hcodec, Option.map_some]
    · rfl
    · exact hname

/-- **An encoder finds its layer.**  Of a resolution whose larger dimension can be halved once for each layer but the
top one, a group can be made.  Its layers double from each to the next, up to the resolution itself.  From then on, an
encoder whose layer is not fixed and that is set up with the size of a layer and with the group's streams finds the
index of this layer, which is the index that the layer's own factory fixes for good. -/
theorem layers_matched_as_pinned (s : Session) (r : Ref .registry) (base : SourceConfig) {n : Nat} (h1 : 1 ≤ n)
    (h17 : n ≤ 17) (htop : 2 ^ (n - 1) ≤ max base.resolution.width.toNat base.resolution.height.toNat) :
    let resolutions := Group.resolutionsBelow base.resolution n
    ∃ g t, s.addGroup r base resolutions = (.ok g, t) ∧ g.layers.length = n ∧
      (g.layers.map fun id => (t.source? id).map Source.nature) = (resolutions.map fun res => some (base.codec, res)) ∧
      resolutions.getLast? = some ⟨max base.resolution.width 1, max base.resolution.height 1⟩ ∧
      (∀ i lower upper, resolutions[i]? = some lower → resolutions[i + 1]? = some upper →
        lower = upper.scaledDown 2 ∧ lower.width ≤ upper.width ∧ lower.height ≤ upper.height ∧
          (lower.width < upper.width ∨ lower.height < upper.height)) ∧
      ∀ later i res, resolutions[i]? = some res →
        (∀ (p : Passthrough) (settings : Settings), p.pinned = none → settings.codec = p.codec →
          settings.resolution = res → settings.streams = (t.run later).streams g →
            ∃ q, p.init settings = .ok q ∧ q.layer = some (UInt32.ofNat i)) ∧
        ∀ format, Codec.sameName base.codec.sdpName format.name = true →
          ∃ f p, g.factory? i = some f ∧ f.create? (t.run later).findByCodec format = some p ∧
            p.layer = some (UInt32.ofNat i) ∧
            ∀ settings q, p.init settings = .ok q → q.layer = some (UInt32.ofNat i) := by
  intro resolutions
  have hlength : resolutions.length = n := Group.length_resolutionsBelow base.resolution n
  have hsome : resolutions ≠ [] := by
    intro hnil
    rw [hnil, List.length_nil] at hlength
    omega
  obtain ⟨g, t, hmade⟩ : ∃ g t, s.addGroup r base resolutions = (.ok g, t) := by
    rw [Session.addGroup, if_neg hsome]
    exact ⟨_, _, rfl⟩
  have hlayers : g.layers.length = n := by
    rw [(Session.made_of_addGroup hmade).1, List.length_map, List.length_range', hlength]
  have hcodec : g.codec = base.codec := Session.codec_of_addGroup hmade
  refine ⟨g, t, hmade, hlayers, Session.natures_of_addGroup hmade, Group.resolution_top h1, ?_, ?_⟩
  · intro i lower upper hi hj
    exact ⟨Group.resolution_succ h17 hi hj, Group.lt_resolution h17 htop (Nat.lt_succ_self i) hi hj⟩
  · intro later i res hi
    constructor
    · intro p settings hfree hsame hsize hstreams
      have hvalid : res.width ≠ 0 ∧ res.height ≠ 0 := by
        rw [Group.resolution_eq h17 hi]
        exact base.resolution.scaledDown_ne_zero _
      have hwidth : settings.width = res.width := congrArg Resolution.width hsize
      have hheight : settings.height = res.height := congrArg Resolution.height hsize
      obtain ⟨q, hq⟩ := Passthrough.init_of_valid (hwidth ▸ hvalid.1) (hheight ▸ hvalid.2) hsame
      have hfound : settings.matchingStream? = some (UInt32.ofNat i) := by
        rw [Settings.matchingStream?, hstreams, Session.streams_of_addGroup hmade, hwidth, hheight,
          Group.findIdx?_stream h17 htop hi, Option.map_some]
      refine ⟨q, hq, ?_⟩
      rw [Passthrough.init_ok hq]
      show (p.pinned <|> settings.matchingStream?) = _
      rw [hfree, hfound]
      rfl
    · intro format hname
      have hlt : i < g.layers.length := by
        rw [hlayers]
        exact Group.lt_of_resolution hi
      obtain ⟨f, p, hf, hp, -, hpinned, hlayer⟩ :=
        Group.create?_layer hlt (t.run later).findByCodec (hcodec.symm ▸ hname)
      refine ⟨f, p, hf, hp, hlayer, fun settings q hq => ?_⟩
      rw [Passthrough.init_ok hq]
      show (p.pinned <|> settings.matchingStream?) = _
      rw [hpinned]
      rfl

/-- Three layers, the lower two of which are of one height. -/
theorem layers_matched_as_pinned_flat :
    Group.resolutionsBelow ⟨5, 3⟩ 3 = [⟨1, 1⟩, ⟨2, 1⟩, ⟨5, 3⟩] ∧
    ∃ g t, ({} : Session).addGroup ⟨1⟩ { resolution := ⟨5, 3⟩ } (Group.resolutionsBelow ⟨5, 3⟩ 3) = (.ok g, t) ∧
      ∀ later, ∃ q, (Passthrough.make (.routed ⟨1⟩) .vp8 {} none).init
        { codec := .vp8, width := 2, height := 1, streams := (t.run later).streams g } = .ok q ∧ q.layer = some 1 := by
  have hresolutions : Group.resolutionsBelow ⟨5, 3⟩ 3 = [⟨1, 1⟩, ⟨2, 1⟩, ⟨5, 3⟩] := by decide
  refine ⟨hresolutions, ?_⟩
  have hmiddle : (Group.resolutionsBelow ⟨5, 3⟩ 3)[1]? = some ⟨2, 1⟩ := by
    rw [hresolutions]
    rfl
  obtain ⟨g, t, hmade, -, -, -, -, hfinds⟩ := layers_matched_as_pinned {} ⟨1⟩
    { resolution := ⟨5, 3⟩ } (n := 3) (by decide) (by decide) (by decide)
  refine ⟨g, t, hmade, fun later => ?_⟩
  exact (hfinds later 1 ⟨2, 1⟩ hmiddle).1 _ _ rfl rfl rfl rfl

end EncodedFeed
