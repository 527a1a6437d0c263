import EncodedFeed.Proofs.Session.Asking
import EncodedFeed.Proofs.Simulcast.Wiring

/-!
# Simulcast layers are isolated

What is done to one layer of a wired group cannot be seen from another: a layer goes through the same states,
gives the same answers and shows the same images whether or not anything is done to the others.  The only
object the layers share is the group's observer, and to it each of them speaks under its own index.

Two runs are compared step by step.  `Agree` says that one layer looks the same in both; an operation on
this layer keeps it when it is done in both, an operation on another layer when it is done in one.
-/

namespace EncodedFeed

/-- Something done to a layer. -/
structure LayerOp where
  layer : Nat
  op : Lane.Op

/-- What can be seen of a layer. -/
structure LayerView where
  /-- Images the output was presented with, and the refusals. -/
  received : List (EmittedImage × Option SinkError)
  output : Option Output
  stats : Option PipelineStats
  queue : List EncodedFrame
  keyframeRequested : Bool
  /-- The stamp of the last placeholder. -/
  lastStamp : Option (Stamped Int64)
  /-- How often the observer was told of the layer. -/
  notices : Nat

namespace Session

/-- Do something to a layer: payloads and frames go through the group, the rest to the layer's own lane. -/
def performLayer (s : Session) (g : Group) (lanes : List Lane) (x : LayerOp) : Reply × Session :=
  match x.op with
  | .capture tags payload now =>
    (.accepted (s.captureLayer g x.layer tags payload now).1, (s.captureLayer g x.layer tags payload now).2)
  | .push f now => (.accepted (s.pushLayer g x.layer f now).1, (s.pushLayer g x.layer f now).2)
  | op =>
    match lanes[x.layer]? with
    | some a => s.perform (op.action a)
    | none => (.done, s)

/-- Do one thing after the other; the answers come with their layers. -/
def runLayers (s : Session) (g : Group) (lanes : List Lane) : List LayerOp → List (Nat × Reply) × Session
  | [] => ([], s)
  | x :: rest =>
    let p := s.performLayer g lanes x
    let q := p.2.runLayers g lanes rest
    ((x.layer, p.1) :: q.1, q.2)

/-- What can be seen of a layer that is wired as a lane, given the observer of its group. -/
def view (s : Session) (o : Ref .observer) (i : Nat) (a : Lane) : LayerView where
  received := s.received a.output
  output := s.output? a.output
  stats := (s.pipeline? a.pipeline).map Pipeline.stats
  queue := s.queue a.source
  keyframeRequested := (s.source? a.source).any Source.keyframeRequested
  lastStamp := (s.source? a.source).bind fun src => src.pump.aligner.last
  notices := (s.told o).count (some i)

variable {s t : Session} {g : Group} {o : Ref .observer} {lanes : List Lane} {a b : Lane} {x y : Lane.State}
  {i j : Nat}

theorem received_move (es : List Event) (o' : Ref .output) :
    (s.move a y es).received o' = s.received o' ++ es.filterMap (Event.offered? o') := by
  simp only [received, move, List.reverse_append, List.reverse_reverse, List.filterMap_append]

theorem received_tell (w : Option Watcher) (o' : Ref .output) : (s.tell w).received o' = s.received o' := by
  cases w <;> rfl

theorem listens_tell (h : s.Listens o) (w : Option Watcher) : (s.tell w).Listens o := by
  cases w with
  | none => exact h
  | some w =>
    simp only [Listens, tell, Table.get?_modify]
    split
    · rw [Option.isSome_map]; exact h
    · exact h

theorem told_tell (h : s.Listens o) (layer : Option Nat) :
    (s.tell (some ⟨o, layer⟩)).told o = s.told o ++ [layer] := by
  obtain ⟨xs, hxs⟩ := Option.isSome_iff_exists.mp h
  simp [told, tell, Table.get?_modify, hxs]

theorem told_move (es : List Event) : (s.move a y es).told o = s.told o := rfl

/-- Nothing that happens in one lane reaches the output of another. -/
theorem offered?_of_apart {layer : Option UInt32} {es : List Event} (h : ∀ e ∈ es, e.Of b layer)
    (hab : a.Apart b) : es.filterMap (Event.offered? a.output) = [] := by
  refine List.filterMap_eq_nil_iff.mpr fun e he => ?_
  have hof := h e he
  cases e with
  | presented o' img r =>
    have hne : ¬ o' = a.output := fun heq => hab.output (heq.symm.trans hof.1)
    simp only [Event.offered?, if_neg hne]
  | _ => rfl

/-! ### One step -/

/-- A layer in working order, in some state. -/
structure IsLayer (s : Session) (o : Ref .observer) (i : Nat) (a : Lane) (x : Lane.State) : Prop where
  has : s.Has a x
  wired : x.Wired a
  watcher : x.source.watcher = some ⟨o, some i⟩
  layer : x.encoder.layer = some (UInt32.ofNat i)

/-- The lanes are those of the layers of the group, in order, and have nothing in common. -/
structure Layout (g : Group) (lanes : List Lane) : Prop where
  length : lanes.length = g.layers.length
  nodup : g.layers.Nodup
  source (k : Nat) (b : Lane) : lanes[k]? = some b → g.layers[k]? = some b.source
  apart (k l : Nat) (b c : Lane) : lanes[k]? = some b → lanes[l]? = some c → k ≠ l → b.Apart c

/-- All layers are in working order, and the observer listens. -/
structure Ready (s : Session) (o : Ref .observer) (lanes : List Lane) : Prop where
  listens : s.Listens o
  layer (k : Nat) (b : Lane) : lanes[k]? = some b → ∃ y, s.IsLayer o k b y

/-- The state of a layer after an operation, with the observer told. -/
def operated (s : Session) (a : Lane) (x : Lane.State) (op : Lane.Op) : Session :=
  (s.tell (x.hearer (x.asks op))).move a (x.next a op).1 (x.next a op).2

theorem isLayer_operated (h : s.IsLayer o i a x) (op : Lane.Op) :
    (s.operated a x op).IsLayer o i a (x.next a op).1 where
  has := has_move (has_tell h.has _)
  wired := Lane.State.wired_of_wiring_eq (x.wiring_next a op) h.wired
  watcher := (Lane.State.watcher_of_wiring_eq (x.wiring_next a op)).trans h.watcher
  layer := (Lane.State.layer_of_wiring_eq (x.wiring_next a op)).trans h.layer

theorem isLayer_operated_of_apart (h : s.IsLayer o i a x) (hba : b.Apart a) (op : Lane.Op) :
    (s.operated b y op).IsLayer o i a x :=
  ⟨has_move_of_apart hba (has_tell h.has _), h.wired, h.watcher, h.layer⟩

theorem told_operated (hl : s.Listens o) (h : s.IsLayer o i a x) (op : Lane.Op) :
    (s.operated a x op).told o = s.told o ++ if x.asks op then [some i] else [] := by
  rw [operated, told_move, Lane.State.hearer, h.watcher]
  cases x.asks op with
  | true => exact told_tell hl (some i)
  | false => exact (List.append_nil _).symm

theorem journal_operated (op : Lane.Op) :
    (s.operated a x op).journal = (x.next a op).2.reverse ++ s.journal := by
  cases h : x.hearer (x.asks op) <;> simp only [operated, h, tell, move]

theorem received_operated (op : Lane.Op) (o' : Ref .output) :
    (s.operated a x op).received o' = s.received o' ++ (x.next a op).2.filterMap (Event.offered? o') := by
  rw [operated, received_move, received_tell]

theorem ready_operated (hL : Layout g lanes) (hr : s.Ready o lanes) (hk : lanes[j]? = some b)
    (h : s.IsLayer o j b y) (op : Lane.Op) : (s.operated b y op).Ready o lanes where
  listens := listens_tell hr.listens _
  layer k c hc := by
    by_cases heq : j = k
    · subst heq
      rw [hk, Option.some.injEq] at hc
      subst hc
      exact ⟨_, isLayer_operated h op⟩
    · obtain ⟨z, hz⟩ := hr.layer k c hc
      exact ⟨z, isLayer_operated_of_apart hz (hL.apart j k b c hk hc heq) op⟩

theorem ready_warn (hr : s.Ready o lanes) (w : Warning) : (s.warn w).Ready o lanes where
  listens := hr.listens
  layer k b hb := by
    obtain ⟨z, hz⟩ := hr.layer k b hb
    exact ⟨z, ⟨hz.has.source, hz.has.pipeline, hz.has.encoder, hz.has.output⟩, hz.wired, hz.watcher, hz.layer⟩

/-- An operation on a layer moves its lane; for a layer that is not there it warns at most. -/
theorem performLayer_cases (hL : Layout g lanes) (hr : s.Ready o lanes) (op : LayerOp) :
    (∃ b y, lanes[op.layer]? = some b ∧ s.IsLayer o op.layer b y ∧
      s.performLayer g lanes op = (y.reply op.op, s.operated b y op.op)) ∨
    (lanes[op.layer]? = none ∧ ((s.performLayer g lanes op).2 = s ∨
      ∃ w, (s.performLayer g lanes op).2 = s.warn w)) := by
  obtain ⟨k, op⟩ := op
  cases hk : lanes[k]? with
  | some b =>
    obtain ⟨y, hy⟩ := hr.layer k b hk
    have hsrc := hL.source k b hk
    have hperform := perform_eq_move hy.has hy.wired op
    refine .inl ⟨b, y, rfl, hy, hperform ▸ ?_⟩
    cases op <;> simp only [performLayer, captureLayer, pushLayer, hsrc, hk] <;> rfl
  | none =>
    have hnone : g.layers[k]? = none := by
      have hlen := hL.length
      rw [List.getElem?_eq_none_iff] at hk ⊢
      omega
    refine .inr ⟨rfl, ?_⟩
    cases op with
    | capture | push =>
      simp only [performLayer, captureLayer, pushLayer, hnone]
      exact .inr ⟨_, rfl⟩
    | requestKeyframe | consumeKeyframeRequest | wantKeyframe | hintRate =>
      simp only [performLayer, hk]
      exact .inl trivial

/-! ### Two runs -/

/-- A layer looks the same in two sessions. -/
structure Agree (o : Ref .observer) (i : Nat) (a : Lane) (s t : Session) : Prop where
  state : ∃ x, s.IsLayer o i a x ∧ t.IsLayer o i a x
  received : s.received a.output = t.received a.output
  notices : (s.told o).count (some i) = (t.told o).count (some i)

theorem ready_performLayer (hL : Layout g lanes) (hr : s.Ready o lanes) (op : LayerOp) :
    (s.performLayer g lanes op).2.Ready o lanes := by
  rcases performLayer_cases hL hr op with ⟨b, y, hb, hy, heq⟩ | ⟨_, heq | ⟨w, heq⟩⟩
  · rw [heq]
    exact ready_operated hL hr hb hy op.op
  · rw [heq]
    exact hr
  · rw [heq]
    exact ready_warn hr w

/-- What is done to another layer is not seen. -/
theorem agree_other (hL : Layout g lanes) (hr : s.Ready o lanes) (ha : lanes[i]? = some a)
    (h : Agree o i a s t) {op : LayerOp} (hop : op.layer ≠ i) :
    Agree o i a (s.performLayer g lanes op).2 t := by
  obtain ⟨x, hx, hxt⟩ := h.state
  rcases performLayer_cases hL hr op with ⟨b, y, hb, hy, heq⟩ | ⟨_, heq | ⟨w, heq⟩⟩
  · have hba := hL.apart op.layer i b a hb ha hop
    rw [heq]
    refine ⟨⟨x, isLayer_operated_of_apart hx hba op.op, hxt⟩, ?_, ?_⟩
    · rw [received_operated, offered?_of_apart (y.makes_next b op.op).of hba.symm, List.append_nil]
      exact h.received
    · rw [told_operated hr.listens hy, List.count_append]
      have hcount : (if y.asks op.op then [some op.layer] else []).count (some i) = 0 := by
        cases y.asks op.op <;> simp [hop]
      rw [hcount]
      exact h.notices
  · rw [heq]
    exact h
  · rw [heq]
    refine ⟨⟨x, ⟨⟨hx.has.source, hx.has.pipeline, hx.has.encoder, hx.has.output⟩, hx.wired, hx.watcher,
      hx.layer⟩, hxt⟩, ?_, h.notices⟩
    rw [← h.received]
    simp [Session.received, warn, note, Event.offered?, List.filterMap_append]

/-- What is done to the layer in both sessions gives the same answer and is seen alike. -/
theorem agree_same (hL : Layout g lanes) (hr : s.Ready o lanes) (hrt : t.Ready o lanes)
    (ha : lanes[i]? = some a) (h : Agree o i a s t) {op : LayerOp} (hop : op.layer = i) :
    (s.performLayer g lanes op).1 = (t.performLayer g lanes op).1 ∧
      Agree o i a (s.performLayer g lanes op).2 (t.performLayer g lanes op).2 := by
  obtain ⟨x, hx, hxt⟩ := h.state
  have hmove : ∀ {u : Session}, u.Ready o lanes → u.IsLayer o i a x →
      u.performLayer g lanes op = (x.reply op.op, u.operated a x op.op) := fun hu hux => by
    rcases performLayer_cases hL hu op with ⟨b, y, hb, hy, heq⟩ | ⟨hnone, _⟩
    · rw [hop, ha, Option.some.injEq] at hb
      subst hb
      -- the state of a lane is determined by the session
      have hxy : y = x := by
        have h1 := Option.some.inj (hy.has.source.symm.trans hux.has.source)
        have h2 := Option.some.inj (hy.has.pipeline.symm.trans hux.has.pipeline)
        have h3 := Option.some.inj (hy.has.encoder.symm.trans hux.has.encoder)
        have h4 := Option.some.inj (hy.has.output.symm.trans hux.has.output)
        cases x
        cases y
        simp_all
      rw [heq, hxy]
    · rw [hop, ha] at hnone
      cases hnone
  rw [hmove hr hx, hmove hrt hxt]
  refine ⟨rfl, ⟨_, isLayer_operated hx op.op, isLayer_operated hxt op.op⟩, ?_, ?_⟩
  · rw [received_operated, received_operated, h.received]
  · rw [told_operated hr.listens hx, told_operated hrt.listens hxt, List.count_append, List.count_append,
      h.notices]

/-- **A run, and what is left of it when everything done to other layers is left out.** -/
theorem agree_runLayers (hL : Layout g lanes) (ha : lanes[i]? = some a) (ops : List LayerOp) {s t : Session}
    (hr : s.Ready o lanes) (hrt : t.Ready o lanes) (h : Agree o i a s t) :
    (s.runLayers g lanes ops).1.filter (fun r => r.1 == i)
        = (t.runLayers g lanes (ops.filter fun x => x.layer == i)).1 ∧
      Agree o i a (s.runLayers g lanes ops).2
        (t.runLayers g lanes (ops.filter fun x => x.layer == i)).2 := by
  induction ops generalizing s t with
  | nil => exact ⟨rfl, h⟩
  | cons op rest ih =>
    have hs := ready_performLayer hL hr op
    by_cases hop : op.layer = i
    · obtain ⟨hreply, hagree⟩ := agree_same hL hr hrt ha h hop
      obtain ⟨hreplies, hrest⟩ := ih hs (ready_performLayer hL hrt op) hagree
      have hkeep : (op :: rest).filter (fun x => x.layer == i)
          = op :: rest.filter fun x => x.layer == i := List.filter_cons_of_pos (by simp [hop])
      rw [hkeep]
      refine ⟨?_, hrest⟩
      simp only [runLayers, List.filter_cons, hop, beq_self_eq_true, if_true, hreplies, hreply]
    · obtain ⟨hreplies, hrest⟩ := ih hs hrt (agree_other hL hr ha h hop)
      have hdrop : (op :: rest).filter (fun x => x.layer == i) = rest.filter fun x => x.layer == i :=
        List.filter_cons_of_neg (by simp [hop])
      rw [hdrop]
      refine ⟨?_, hrest⟩
      have hne : (op.layer == i) = false := by simp [hop]
      simp only [runLayers, List.filter_cons, hne, Bool.false_eq_true, if_false, hreplies]

theorem view_of_agree (h : Agree o i a s t) : s.view o i a = t.view o i a := by
  obtain ⟨x, hx, hxt⟩ := h.state
  simp only [view, h.received, h.notices, hx.has.output, hxt.has.output, hx.has.pipeline, hxt.has.pipeline,
    queue, hx.has.source, hxt.has.source]

/-! ### What happens in a run -/

/-- From `s` to `t` the events `es` happen: every image is of the layer whose output it is presented to, and
the observer is told of each request, with the layer whose source was asked. -/
structure Layered (g : Group) (o : Ref .observer) (lanes : List Lane) (es : List Event) (s t : Session) :
    Prop where
  journal : t.journal = es.reverse ++ s.journal
  images (k : Nat) (b : Lane) : lanes[k]? = some b → ∀ img r, .presented b.output img r ∈ es →
    img.image.layer = some (UInt32.ofNat k)
  told : t.told o = s.told o ++ (askedIn es).map fun id => some (g.layers.idxOf id)

theorem layered_performLayer (hL : Layout g lanes) (hr : s.Ready o lanes) (op : LayerOp) :
    ∃ es, Layered g o lanes es s (s.performLayer g lanes op).2 := by
  rcases performLayer_cases hL hr op with ⟨b, y, hb, hy, heq⟩ | ⟨_, heq | ⟨w, heq⟩⟩
  · rw [heq]
    have hmakes := y.makes_next b op.op
    refine ⟨(y.next b op.op).2, journal_operated op.op, fun k c hc img r himg => ?_, ?_⟩
    · have hof := hmakes.of _ himg
      by_cases hk : op.layer = k
      · subst hk
        exact hof.2.trans hy.layer
      · exact absurd hof.1 (hL.apart op.layer k b c hb hc hk).symm.output
    · obtain ⟨hlt, hget⟩ := List.getElem?_eq_some_iff.mp (hL.source op.layer b hb)
      have hidx : g.layers.idxOf b.source = op.layer := by
        rw [← hget]
        exact hL.nodup.idxOf_getElem op.layer hlt
      rw [told_operated hr.listens hy, hmakes.asked]
      cases y.asks op.op <;> simp [hidx]
  · rw [heq]
    exact ⟨[], rfl, fun _ _ _ _ _ h => by simp at h, by simp [askedIn]⟩
  · rw [heq]
    exact ⟨[.warned w], rfl, fun _ _ _ _ _ h => by simp at h, by simp [askedIn, Event.asked?, told, warn, note]⟩

theorem layered_runLayers (hL : Layout g lanes) (ops : List LayerOp) {s : Session} (hr : s.Ready o lanes) :
    ∃ es, Layered g o lanes es s (s.runLayers g lanes ops).2 := by
  induction ops generalizing s with
  | nil => exact ⟨[], rfl, fun _ _ _ _ _ h => by simp at h, by simp [askedIn, runLayers]⟩
  | cons op rest ih =>
    obtain ⟨es, hes⟩ := layered_performLayer hL hr op
    obtain ⟨es', hes'⟩ := ih (ready_performLayer hL hr op)
    refine ⟨es ++ es', ?_, fun k b hb img r himg => ?_, ?_⟩
    · rw [List.reverse_append, List.append_assoc, ← hes.journal]
      exact hes'.journal
    · rcases List.mem_append.mp himg with himg | himg
      · exact hes.images k b hb img r himg
      · exact hes'.images k b hb img r himg
    · rw [askedIn_append, List.map_append, ← List.append_assoc, ← hes.told]
      exact hes'.told

end Session

/-- **Isolation of simulcast layers.**  A group is made in any session, watched by an observer, and each of its
layers wired to an encoder of its own factory and a pipeline.  After any interleaving of operations, every
layer looks as it does after the operations on this layer alone, which got the same answers; its images carry
its index; the observer has been told of the layers whose sources were asked for a keyframe, in this order; and
pushing into a layer that is not there is refused with a warning and nothing else. -/
theorem layers_isolated {s₀ s₁ s : Session} {r : Ref .registry} {base : SourceConfig}
    {resolutions : List Resolution} {g : Group} {o : Ref .observer} {plans : List LayerPlan} {lanes : List Lane}
    (hgroup : s₀.addGroup r base resolutions = (.ok g, s₁)) (ho : s₀.Listens o)
    (hwired : (s₁.watchGroup g o).wireLayers g 0 plans = (some lanes, s))
    (hall : plans.length = g.layers.length) (ops : List LayerOp) :
    (∀ i a, lanes[i]? = some a →
      (s.runLayers g lanes ops).2.view o i a
          = (s.runLayers g lanes (ops.filter fun x => x.layer == i)).2.view o i a ∧
      (s.runLayers g lanes ops).1.filter (fun r => r.1 == i)
          = (s.runLayers g lanes (ops.filter fun x => x.layer == i)).1 ∧
      ∀ img ∈ presentedTo a.output (s.eventsSince (s.runLayers g lanes ops).2),
        img.image.layer = some (UInt32.ofNat i)) ∧
    (s.runLayers g lanes ops).2.told o = s.told o
      ++ (askedIn (s.eventsSince (s.runLayers g lanes ops).2)).map (fun id => some (g.layers.idxOf id)) ∧
    ∀ (t : Session) i, g.layers.length ≤ i →
      (∀ tags payload now,
        t.captureLayer g i tags payload now = (false, t.warn (.noLayer i g.layers.length))) ∧
      ∀ f now, t.pushLayer g i f now = (false, t.warn (.noLayer i g.layers.length)) := by
  obtain ⟨hnodup, hunwired, hobs⟩ := Session.unwired_of_addGroup hgroup o
  obtain ⟨hlaid, _, hobs', hlen⟩ := Session.laidOut_of_wireLayers hnodup plans hunwired hwired
  have hL : Session.Layout g lanes := by
    refine ⟨hlen.trans hall, hnodup, fun k b hb => ?_, fun k l b c hb hc hne => ?_⟩
    · have hsrc := (hlaid.has k b hb).1
      rwa [Nat.zero_add] at hsrc
    · obtain ⟨hk, rfl⟩ := List.getElem?_eq_some_iff.mp hb
      obtain ⟨hl, rfl⟩ := List.getElem?_eq_some_iff.mp hc
      rcases Nat.lt_or_gt_of_ne hne with hlt | hgt
      · exact List.pairwise_iff_getElem.mp hlaid.apart k l hk hl hlt
      · exact (List.pairwise_iff_getElem.mp hlaid.apart l k hl hk hgt).symm
  have hr : s.Ready o lanes := by
    refine ⟨?_, fun k b hb => ?_⟩
    · rw [Session.Listens, hobs', hobs]
      exact ho
    · obtain ⟨_, x, hx, hw, hwatch, hlayer⟩ := hlaid.has k b hb
      rw [Nat.zero_add] at hwatch hlayer
      exact ⟨x, hx, hw, hwatch, hlayer⟩
  obtain ⟨es, hes⟩ := Session.layered_runLayers hL ops hr
  have hsince : s.eventsSince (s.runLayers g lanes ops).2 = es := Session.eventsSince_eq hes.journal
  rw [hsince]
  refine ⟨fun i a ha => ?_, hes.told, fun t i hi => ?_⟩
  · obtain ⟨x, hx⟩ := hr.layer i a ha
    obtain ⟨hreplies, hagree⟩ := Session.agree_runLayers hL ha ops hr hr ⟨⟨x, hx, hx⟩, rfl, rfl⟩
    refine ⟨Session.view_of_agree hagree, hreplies, fun img himg => ?_⟩
    obtain ⟨e, he, hpres⟩ := List.mem_filterMap.mp himg
    cases e with
    | presented o' img' r =>
      simp only [Event.presented?, Option.ite_none_right_eq_some, Option.some.injEq] at hpres
      obtain ⟨rfl, rfl⟩ := hpres
      exact hes.images i a ha _ _ he
    | _ => cases hpres
  · have hnone : g.layers[i]? = none := List.getElem?_eq_none_iff.mpr hi
    constructor
    · intro tags payload now
      simp only [Session.captureLayer, hnone]
      rfl
    · intro f now
      simp only [Session.pushLayer, hnone]
      rfl

/-- A group of two layers. -/
def twoLayers : Group := ⟨.vp8, [⟨1⟩, ⟨2⟩]⟩

/-- The session in which it has just been made. -/
def groupMade : Session :=
  ((({} : Session).run [.addRegistry, .addObserver]).addGroup ⟨1⟩ { codec := .vp8 }
    [⟨320, 180⟩, ⟨640, 360⟩]).2

/-- Both layers are wired to a collector. -/
def layerPlan : LayerPlan := ⟨.forCodec .vp8 .nonInterleaved, ⟨.vp8, 640, 360, 30, []⟩, .collector #[]⟩

/-- The lanes of the two layers. -/
def twoLanes : List Lane := [⟨⟨1⟩, ⟨1⟩, ⟨1⟩, ⟨1⟩⟩, ⟨⟨2⟩, ⟨2⟩, ⟨2⟩, ⟨2⟩⟩]

/-- The session in which they are wired. -/
def groupWired : Session :=
  ((groupMade.watchGroup twoLayers ⟨1⟩).wireLayers twoLayers 0 [layerPlan, layerPlan]).2

/-- A keyframe is asked for on the upper layer while the lower one is paused. -/
def crossTalk : List LayerOp :=
  [⟨0, .capture { width := 320, height := 180, isKey := true } [1] 10⟩, ⟨1, .wantKeyframe⟩,
    ⟨0, .hintRate ⟨0⟩⟩, ⟨1, .capture { width := 640, height := 360 } [2] 20⟩,
    ⟨7, .capture { width := 640, height := 360 } [2] 20⟩,
    ⟨0, .capture { width := 320, height := 180 } [3] 30⟩, ⟨1, .consumeKeyframeRequest⟩]

theorem layers_isolated_crossTalk :
    (({} : Session).run [.addRegistry, .addObserver]).addGroup ⟨1⟩ { codec := .vp8 }
        [⟨320, 180⟩, ⟨640, 360⟩] = (.ok twoLayers, groupMade) ∧
    (({} : Session).run [.addRegistry, .addObserver]).Listens ⟨1⟩ ∧
    (groupMade.watchGroup twoLayers ⟨1⟩).wireLayers twoLayers 0 [layerPlan, layerPlan]
      = (some twoLanes, groupWired) ∧
    (groupWired.runLayers twoLayers twoLanes crossTalk).2.told ⟨1⟩ = [some 1] ∧
    ((groupWired.runLayers twoLayers twoLanes crossTalk).2.queue ⟨1⟩).length = 1 ∧
    (groupWired.runLayers twoLayers twoLanes crossTalk).2.view ⟨1⟩ 0 ⟨⟨1⟩, ⟨1⟩, ⟨1⟩, ⟨1⟩⟩
      = (groupWired.runLayers twoLayers twoLanes (crossTalk.filter fun x => x.layer == 0)).2.view ⟨1⟩ 0
          ⟨⟨1⟩, ⟨1⟩, ⟨1⟩, ⟨1⟩⟩ := by
  have hmade : (({} : Session).run [.addRegistry, .addObserver]).addGroup ⟨1⟩ { codec := .vp8 }
      [⟨320, 180⟩, ⟨640, 360⟩] = (.ok twoLayers, groupMade) := rfl
  have hwired : (groupMade.watchGroup twoLayers ⟨1⟩).wireLayers twoLayers 0 [layerPlan, layerPlan]
      = (some twoLanes, groupWired) := Prod.ext (by decide +kernel) rfl
  have hlistens : (({} : Session).run [.addRegistry, .addObserver]).Listens ⟨1⟩ := by
    unfold Session.Listens
    rfl
  refine ⟨hmade, hlistens, hwired, by decide +kernel, by decide +kernel, ?_⟩
  exact ((layers_isolated hmade hlistens hwired rfl crossTalk).1 0 _ rfl).1

end EncodedFeed
