import EncodedFeed.Proofs.Lane.Flow
import EncodedFeed.Proofs.Simulation.Schedule
import EncodedFeed.Proofs.Simulcast.Isolation
import EncodedFeed.Proofs.Words
import Mathlib.Algebra.GroupWithZero.Nat

/-!
# The course of a simulation

`Course` says all there is to say about one layer after some frames: what has been pushed and has come out, what
has been requested, and whether its pipeline is about to ask for a keyframe.  It is kept by what is done to other
layers, and a frame that is pushed into the layer brings it one frame further.  So a frame of the simulation takes
all layers from one frame to the next (`reached_step`), and the loop all of them through all frames
(`reached_steps`).
-/

namespace EncodedFeed

namespace Simulation

/-! ### Layers and their frames -/

/-- The lane of a layer; all its objects bear the number of the layer, counted from one. -/
def lane (l : Nat) : Lane := ⟨⟨l + 1⟩, ⟨l + 1⟩, ⟨l + 1⟩, ⟨l + 1⟩⟩

theorem apart_lane {k l : Nat} (h : k ≠ l) : (lane k).Apart (lane l) := by
  have hne : k + 1 ≠ l + 1 := fun heq => h (Nat.succ.inj heq)
  constructor
  · exact fun heq => hne (congrArg RoutingId.number heq)
  · exact fun heq => hne (congrArg Ref.number heq)
  · exact fun heq => hne (congrArg Ref.number heq)
  · exact fun heq => hne (congrArg Ref.number heq)

/-- Who is told of keyframe requests. -/
def audience : Ref .observer := ⟨1⟩

/-- The size of the pictures of a layer. -/
def resolution (x : Setup) (l : Nat) : Resolution :=
  x.source.resolution.scaledDown (1 <<< UInt32.ofNat (min (x.layers - 1 - l) 16))

/-- What is said of the frame with an index that is pushed into a layer. -/
def tags (x : Setup) (l i : Nat) : FrameTags where
  captureUs := captureTime x.fps i
  width := (resolution x l).width
  height := (resolution x l).height
  isKey := isKeyAt x l i
  hasParameterSets := isKeyAt x l i

/-- The frame with an index that is pushed into a layer. -/
def frame (x : Setup) (l i : Nat) : EncodedFrame where
  toFrameTags := tags x l i
  payload := payload l i (isKeyAt x l i) (resolution x l).area
  payload_ne := payload_ne _ _ _ _

/-- The frames that are pushed into a layer until there are `n` of them. -/
def framesBefore (x : Setup) (l n : Nat) : List EncodedFrame := (List.range n).map (frame x l)

theorem framesBefore_succ (x : Setup) (l n : Nat) : framesBefore x l (n + 1) = framesBefore x l n ++ [frame x l n] := by
  rw [framesBefore, List.range_succ, List.map_append]
  rfl

@[simp] theorem length_framesBefore (x : Setup) (l n : Nat) : (framesBefore x l n).length = n := by
  rw [framesBefore, List.length_map, List.length_range]

/-- A layer after `n` frames, as the simulation keeps it. -/
def layerAt (x : Setup) (n l : Nat) : Layer where
  index := l
  source := (lane l).source
  resolution := resolution x l
  output := (lane l).output
  pipeline := (lane l).pipeline
  heeded := requestsBefore x l (n - 1)
  pushed := n
  keyframes := (framesBefore x l n).countP (·.isKey)

/-- What the pipeline of a layer counts when frames go through. -/
def counts (fs : List EncodedFrame) : PipelineStats where
  pulls := fs.length
  framesEmitted := fs.length
  keyframesEmitted := fs.countP (·.isKey)
  bytesEmitted := (fs.map fun f => f.payload.length).sum

theorem counts_snoc (fs : List EncodedFrame) (f : EncodedFrame) {i : EncodedImage} (hdata : i.data = f.payload)
    (htype : i.frameType = .ofKey f.isKey) :
    counts (fs ++ [f]) = { counts fs with pulls := (counts fs).pulls + 1 }.accept i := by
  have hkey : (if FrameType.ofKey f.isKey = .key then 1 else 0) = [f].countP (·.isKey) := by
    cases hf : f.isKey <;> simp [FrameType.ofKey, hf]
  simp only [counts, PipelineStats.accept, hdata, htype, hkey, List.length_append, List.length_singleton,
    List.countP_append, List.map_append, List.map_singleton, List.sum_append, List.sum_singleton]

/-- What is looked at on an image: its octets, whether it is a key image, and its layer. -/
def traits (i : EmittedImage) : Octets × FrameType × Option UInt32 := (i.image.data, i.image.frameType, i.image.layer)

/-- What an image of a layer shall look like that is made of a frame. -/
def expected (l : Nat) (f : EncodedFrame) : Octets × FrameType × Option UInt32 :=
  (f.payload, .ofKey f.isKey, some (UInt32.ofNat l))

/-! ### One layer -/

/-- A layer after `n` frames.  `due` says whether its pipeline asks for a keyframe with the next one. -/
structure Course (x : Setup) (l n : Nat) (due : Bool) (s : Session) (y : Lane.State) : Prop where
  isLayer : s.IsLayer audience l (lane l) y
  clear : y.Clear
  due : y.pipeline.keyframePending = due
  stats : y.pipeline.stats = counts (framesBefore x l n)
  output : ∃ images, y.output = .collector images ∧ images.toList.map traits = (framesBefore x l n).map (expected l)
  told : (s.told audience).count (some l) = requestsBefore x l n
  entered : enteredInto (lane l).source s.journal.reverse = framesBefore x l n

variable {x : Setup} {j k l n : Nat} {due : Bool} {s t u : Session} {y z : Lane.State} {g : Group}

theorem entered_operated (s : Session) (a : Lane) (y : Lane.State) (op : Lane.Op) (id : RoutingId) :
    enteredInto id (s.operated a y op).journal.reverse
      = enteredInto id s.journal.reverse ++ enteredInto id (y.next a op).2 := by
  rw [Session.journal_operated, List.reverse_append, List.reverse_reverse, enteredInto_append]

/-- Nothing enters a lane while something is done to another. -/
theorem enteredInto_of_apart {a b : Lane} {layer : Option UInt32} {es : List Event} (h : ∀ e ∈ es, e.Of b layer)
    (hba : b.Apart a) : enteredInto a.source es = [] := by
  refine List.filterMap_eq_nil_iff.mpr fun e he => ?_
  have hof := h e he
  cases e with
  | pushed id f =>
    have hne : ¬ id = a.source := fun heq => hba.source (hof.symm.trans heq)
    exact if_neg hne
  | _ => rfl

/-- What is done to another layer is of no concern. -/
theorem Course.of_apart (h : Course x l n due s y) (hlistens : s.Listens audience) (hne : k ≠ l)
    (hz : s.IsLayer audience k (lane k) z) (op : Lane.Op) : Course x l n due (s.operated (lane k) z op) y where
  isLayer := Session.isLayer_operated_of_apart h.isLayer (apart_lane hne) op
  clear := h.clear
  due := h.due
  stats := h.stats
  output := h.output
  told := by
    have hother : (if z.asks op then [some k] else []).count (some l) = 0 := by
      cases z.asks op <;> simp [hne]
    rw [Session.told_operated hlistens hz, List.count_append, hother, h.told, Nat.add_zero]
  entered := by
    rw [entered_operated, enteredInto_of_apart (z.makes_next (lane k) op).of (apart_lane hne), h.entered,
      List.append_nil]

/-- The pipeline of a layer is to ask for a keyframe. -/
theorem Course.want (h : Course x l n due s y) :
    s.wantKeyframe (lane l).pipeline = s.operated (lane l) y .wantKeyframe ∧
      Course x l n true (s.operated (lane l) y .wantKeyframe) (y.next (lane l) .wantKeyframe).1 := by
  have hperform := Session.perform_eq_move h.isLayer.has h.isLayer.wired .wantKeyframe
  refine ⟨congrArg Prod.snd hperform, Session.isLayer_operated h.isLayer _, ?_, rfl, h.stats, h.output,
    h.told, ?_⟩
  · exact ⟨h.clear.empty, h.clear.sending, h.clear.welcome⟩
  · rw [entered_operated, h.entered]
    exact List.append_nil _

/-- The layer after the frame with index `n` was pushed into it. -/
theorem Course.next (h : Course x l n (requestedLayer? x n == some l) s y) (hlistens : s.Listens audience)
    (now : Int64) :
    Course x l (n + 1) false (s.operated (lane l) y (.push (frame x l n) now))
      (y.next (lane l) (.push (frame x l n) now)).1 := by
  set f := frame x l n with hf
  set due := requestedLayer? x n == some l with hdue
  have hnext : y.next (lane l) (.push f now) = ((y.passed (lane l) f now).asked due, y.passing (lane l) f now) := by
    rw [← h.due]
    exact Lane.State.pushed_of_clear h.clear (lane l) f now
  have hasks : y.asks (.push f now) = due := h.due
  refine ⟨Session.isLayer_operated h.isLayer _, ?_, ?_, ?_, ?_, ?_, ?_⟩
  · rw [hnext]
    exact Lane.State.clear_asked (Lane.State.clear_passed h.clear (lane l) f now) due
  · rw [hnext]
    rfl
  · rw [hnext, framesBefore_succ, counts_snoc _ _ (i := (y.emerging (lane l) f now).image) rfl rfl, ← h.stats]
    rfl
  · obtain ⟨images, himages, htraits⟩ := h.output
    refine ⟨images.push (y.emerging (lane l) f now), ?_, ?_⟩
    · rw [hnext]
      show (y.output.offer (y.emerging (lane l) f now)).2 = _
      rw [himages]
      rfl
    · have hlast : traits (y.emerging (lane l) f now) = expected l f :=
        congrArg (fun i => (f.payload, FrameType.ofKey f.isKey, i)) h.isLayer.layer
      rw [Array.toList_push, framesBefore_succ, List.map_append, List.map_append, htraits, List.map_singleton, hlast]
      rfl
  · rw [Session.told_operated hlistens h.isLayer, hasks, List.count_append, h.told, requestsBefore, requestsBefore,
      Nat.count_succ]
    cases hd : due with
    | true =>
      have hreq : requestedLayer? x n = some l := beq_iff_eq.mp (hdue.symm.trans hd)
      simp [hreq]
    | false =>
      have hreq : ¬ requestedLayer? x n = some l := fun heq => by simp [hdue, heq] at hd
      simp [hreq]
  · rw [entered_operated, hnext, h.entered, Lane.State.enteredInto_passing, framesBefore_succ]

/-! ### A frame of the simulation -/

theorem capture_frame (h : s.IsLayer audience l (lane l) y) (now : Int64) :
    s.capture (lane l).source (tags x l n) (frame x l n).payload now
      = (true, s.operated (lane l) y (.push (frame x l n) now)) := by
  have hmake : EncodedFrame.make (tags x l n) (frame x l n).payload = .ok (frame x l n) :=
    dif_neg (frame x l n).payload_ne
  simp only [Session.capture, hmake]
  exact Session.push_eq_move h.has h.wired (frame x l n) now

theorem captureLayer_frame (hg : g.layers[l]? = some (lane l).source) (h : s.IsLayer audience l (lane l) y)
    (now : Int64) : s.captureLayer g l (tags x l n) (frame x l n).payload now
      = (true, s.operated (lane l) y (.push (frame x l n) now)) := by
  rw [Session.captureLayer, hg]
  exact capture_frame h now

/-- What the loop asks of the session, if it is time for a request before the frame with an index. -/
def asking (x : Setup) (n : Nat) : List Action :=
  (requestedLayer? x n).toList.map fun l => .wantKeyframe (lane l).pipeline

/-- What it asks for the frame with an index, of `m` layers from layer `j` on. -/
def captures (x : Setup) (now : Int64) (n j m : Nat) : List Action :=
  (List.range' j m).map fun l => .capture (lane l).source (tags x l n) (frame x l n).payload now

/-- All it asks for the `m` frames from the one with index `n` on. -/
def doings (x : Setup) (now : Int64) (n m : Nat) : List Action :=
  (List.range' n m).flatMap fun i => asking x i ++ captures x now i 0 x.layers

theorem requests_eq (s : Session) (o : Ref .observer) (l : Nat) : requests s o l = (s.told o).count (some l) := by
  unfold requests Session.told
  cases s.observers.get? o.number with
  | none => rfl
  | some told => exact Array.count_toList.symm

theorem layerAt_succ (x : Setup) (n l : Nat) :
    layerAt x (n + 1) l = { layerAt x n l with
      heeded := requestsBefore x l n
      pushed := (layerAt x n l).pushed + 1
      keyframes := (layerAt x n l).keyframes + if isKeyAt x l n then 1 else 0 } := by
  have hkey : (framesBefore x l (n + 1)).countP (·.isKey)
      = (framesBefore x l n).countP (·.isKey) + if isKeyAt x l n then 1 else 0 := by
    rw [framesBefore_succ, List.countP_append, List.countP_singleton]
    rfl
  rw [layerAt, hkey]
  rfl

/-- What pushing a frame into a layer comes to if it is accepted. -/
theorem pushLayer_of_accepted {a : Layer} {o : Ref .observer} {told : Nat} {isKey : Bool} {data : Octets} {now : Int64}
    (htold : requests s o a.index = told) (hkey : (decide (a.heeded < told) || beginsGroup x n) = isKey)
    (hdata : payload? a.index n isKey a.resolution = some data)
    (hcapture : s.captureLayer g a.index (a.tags x n isKey) data now = (true, t)) :
    pushLayer x g o now n a s = (.ok { a with
      heeded := told
      pushed := a.pushed + 1
      keyframes := a.keyframes + if isKey then 1 else 0 }, t) := by
  subst htold hkey
  unfold pushLayer
  dsimp only
  rw [hdata]
  dsimp only
  rw [show Layer.tags x n _ { a with heeded := requests s o a.index } = a.tags x n _ from rfl, hcapture]
  rfl

/-- **A frame is pushed into a layer.**  The observer was told of another request just if the frame finds one. -/
theorem pushLayer_eq (harea : (resolution x l).area < 2 ^ 32) (hg : g.layers[l]? = some (lane l).source)
    (h : Course x l n due s y) (now : Int64) : pushLayer x g audience now n (layerAt x n l) s
      = (.ok (layerAt x (n + 1) l), s.operated (lane l) y (.push (frame x l n) now)) := by
  have htold : requests s audience l = requestsBefore x l n := by rw [requests_eq, h.told]
  have hkey : (decide ((layerAt x n l).heeded < requestsBefore x l n) || beginsGroup x n) = isKeyAt x l n := by
    rw [isKeyAt, findsRequest_eq]
    rfl
  have hdata : payload? l n (isKeyAt x l n) (resolution x l) = some (frame x l n).payload := by
    rw [payload?, unsigned?_of_lt harea, Option.map_some]
    rfl
  rw [layerAt_succ]
  exact pushLayer_of_accepted htold hkey hdata (captureLayer_frame hg h.isLayer now)

/-! ### All layers -/

/-- Between two frames: all layers have come through the first `n` ones. -/
structure Reached (x : Setup) (n : Nat) (s : Session) : Prop where
  listens : s.Listens audience
  layer (l : Nat) : l < x.layers → ∃ y, Course x l n false s y

/-- In the midst of the frame with index `n`: the layers below `j` have come through it, the others are to. -/
structure Amid (x : Setup) (n j : Nat) (s : Session) : Prop where
  listens : s.Listens audience
  past (l : Nat) : l < j → ∃ y, Course x l (n + 1) false s y
  ahead (l : Nat) : j ≤ l → l < x.layers → ∃ y, Course x l n (requestedLayer? x n == some l) s y

/-- The frame with index `n` is pushed into the next layer. -/
theorem amid_pushLayer (harea : ∀ l, (resolution x l).area < 2 ^ 32) (hg : g.layers[j]? = some (lane j).source)
    (hj : j < x.layers) (h : Amid x n j s) (now : Int64) :
    ∃ t, pushLayer x g audience now n (layerAt x n j) s = (.ok (layerAt x (n + 1) j), t) ∧
      (s.capture (lane j).source (tags x j n) (frame x j n).payload now).2 = t ∧ Amid x n (j + 1) t := by
  obtain ⟨y, hy⟩ := h.ahead j (Nat.le_refl j) hj
  have hother : ∀ {l m : Nat} {due : Bool}, l ≠ j → (∃ z, Course x l m due s z) →
      ∃ z, Course x l m due (s.operated (lane j) y (.push (frame x j n) now)) z := by
    rintro l m due hne ⟨z, hz⟩
    exact ⟨z, hz.of_apart h.listens hne.symm hy.isLayer _⟩
  refine ⟨s.operated (lane j) y (.push (frame x j n) now), pushLayer_eq (harea j) hg hy now,
    congrArg Prod.snd (capture_frame hy.isLayer now), Session.listens_tell h.listens _, ?_, ?_⟩
  · intro l hl
    rcases Nat.lt_succ_iff_lt_or_eq.mp hl with hlt | rfl
    · exact hother (Nat.ne_of_lt hlt) (h.past l hlt)
    · exact ⟨_, hy.next h.listens now⟩
  · intro l hl hlt
    exact hother (Nat.ne_of_gt hl) (h.ahead l (Nat.le_of_succ_le hl) hlt)

/-- The frame with index `n` is pushed into the last `m` layers. -/
theorem amid_pushLayers (harea : ∀ l, (resolution x l).area < 2 ^ 32)
    (hg : ∀ l < x.layers, g.layers[l]? = some (lane l).source) (now : Int64) (m : Nat) (hm : j + m ≤ x.layers)
    (h : Amid x n j s) :
    ∃ t, pushLayers x g audience now n ((List.range' j m).map (layerAt x n)) s
        = (.ok ((List.range' j m).map (layerAt x (n + 1))), t) ∧
      s.run (captures x now n j m) = t ∧ Amid x n (j + m) t := by
  induction m generalizing j s with
  | zero => exact ⟨s, rfl, rfl, h⟩
  | succ m ih =>
    have hj : j < x.layers := by omega
    obtain ⟨t, hone, hcapture, ht⟩ := amid_pushLayer harea (hg j hj) hj h now
    obtain ⟨u, hrest, hrun, hu⟩ := ih (by omega) ht
    refine ⟨u, ?_, ?_, ?_⟩
    · rw [List.range'_succ, List.map_cons, List.map_cons, pushLayers, hone]
      dsimp only
      rw [hrest]
    · rw [captures, List.range'_succ, List.map_cons, Session.run_cons]
      show Session.run (s.capture _ _ _ _).2 _ = u
      rw [hcapture]
      exact hrun
    · have harith : j + (m + 1) = j + 1 + m := by omega
      rw [harith]
      exact hu

/-- The pipeline whose turn it is, if it is one's turn, is to ask for a keyframe. -/
theorem amid_request (hx : 0 < x.layers) (h : Reached x n s) :
    Amid x n 0 (request x ((List.range x.layers).map (layerAt x n)) n s) := by
  unfold request
  cases hr : requestedLayer? x n with
  | none =>
    refine ⟨h.listens, fun l hl => absurd hl (Nat.not_lt_zero l), fun l _ hlt => ?_⟩
    rw [hr]
    exact h.layer l hlt
  | some k =>
    have hk := lt_of_requestedLayer? hx hr
    obtain ⟨y, hy⟩ := h.layer k hk
    have hget : ((List.range x.layers).map (layerAt x n))[k]? = some (layerAt x n k) := by
      rw [List.getElem?_map, List.getElem?_range hk, Option.map_some]
    obtain ⟨hwant, hnext⟩ := hy.want
    rw [Option.bind_some, hget]
    show Amid x n 0 (s.wantKeyframe (lane k).pipeline)
    rw [hwant]
    refine ⟨Session.listens_tell h.listens _, fun l hl => absurd hl (Nat.not_lt_zero l), fun l _ hlt => ?_⟩
    rw [hr]
    by_cases heq : l = k
    · subst heq
      rw [beq_self_eq_true]
      exact ⟨_, hnext⟩
    · have hfalse : (some k == some l) = false := beq_eq_false_iff_ne.mpr fun hkl => heq (Option.some.inj hkl).symm
      obtain ⟨z, hz⟩ := h.layer l hlt
      rw [hfalse]
      exact ⟨z, hz.of_apart h.listens (Ne.symm heq) hy.isLayer _⟩

theorem request_eq (hx : 0 < x.layers) (s : Session) :
    request x ((List.range x.layers).map (layerAt x n)) n s = s.run (asking x n) := by
  unfold request asking
  cases hr : requestedLayer? x n with
  | none => rfl
  | some k =>
    rw [Option.bind_some, List.getElem?_map, List.getElem?_range (lt_of_requestedLayer? hx hr), Option.map_some]
    rfl

/-- **One frame of the simulation** takes all layers one frame further. -/
theorem reached_step (hx : 0 < x.layers) (harea : ∀ l, (resolution x l).area < 2 ^ 32)
    (hg : ∀ l < x.layers, g.layers[l]? = some (lane l).source) (now : Int64) (h : Reached x n s) :
    ∃ t, step x g audience now n ((List.range x.layers).map (layerAt x n)) s
        = (.ok ((List.range x.layers).map (layerAt x (n + 1))), t) ∧
      s.run (asking x n ++ captures x now n 0 x.layers) = t ∧ Reached x (n + 1) t := by
  have hamid := amid_request hx h
  obtain ⟨t, hpush, hrun, ht⟩ := amid_pushLayers harea hg now x.layers (Nat.le_of_eq (Nat.zero_add _)) hamid
  rw [← List.range_eq_range'] at hpush
  rw [Nat.zero_add] at ht
  refine ⟨t, hpush, ?_, ht.listens, ht.past⟩
  rw [Session.run_append, ← request_eq hx, hrun]

/-- **The whole loop**, from the frame with index `n` on. -/
theorem reached_steps (hx : 0 < x.layers) (harea : ∀ l, (resolution x l).area < 2 ^ 32)
    (hg : ∀ l < x.layers, g.layers[l]? = some (lane l).source) (now : Int64) (m : Nat) (h : Reached x n s) :
    ∃ t, steps x g audience now (List.range' n m) ((List.range x.layers).map (layerAt x n)) s
        = (.ok ((List.range x.layers).map (layerAt x (n + m))), t) ∧
      s.run (doings x now n m) = t ∧ Reached x (n + m) t := by
  induction m generalizing n s with
  | zero => exact ⟨s, rfl, rfl, h⟩
  | succ m ih =>
    obtain ⟨t, hstep, hone, ht⟩ := reached_step hx harea hg now h
    obtain ⟨u, hsteps, hrest, hu⟩ := ih ht
    have harith : n + (m + 1) = n + 1 + m := by omega
    rw [harith]
    refine ⟨u, ?_, ?_, hu⟩
    · rw [List.range'_succ, steps, hstep]
      exact hsteps
    · rw [doings, List.range'_succ, List.flatMap_cons, Session.run_append, hone]
      exact hrest

end Simulation

end EncodedFeed
