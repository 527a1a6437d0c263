import EncodedFeed.Proofs.Pipeline.Pulls
import Mathlib.Algebra.GroupWithZero.Nat

/-!
# The accounts of a pipeline

A pipeline around a passthrough encoder counts its pulls in three places: on the way in, at the output, and by
the result of the pull.  The counts agree with one another and with what the output accepted and refused,
because each raw frame adds one pull and one of three results (`PipelineStats.Counts.pulled`), and nothing else
is ever counted.
-/

namespace EncodedFeed

/-- The image of an offer that was accepted. -/
def Offer.accepted? : Offer → Option EncodedImage
  | (i, none) => some i.image
  | _ => none

/-- What was offered to an output while raw frames reached a pipeline, in order. -/
def offersOf (p : Ref .pipeline) (o : Ref .output) (ms : List Moment) : List Offer :=
  ms.flatMap fun m => if m.reaches p then m.events.filterMap (Event.offered? o) else []

theorem offersOf_snoc (p : Ref .pipeline) (o : Ref .output) (ms : List Moment) (m : Moment) :
    offersOf p o (ms ++ [m])
      = offersOf p o ms ++ if m.reaches p then m.events.filterMap (Event.offered? o) else [] := by
  simp [offersOf]

/-- The counts of a pipeline that has made these offers. -/
structure PipelineStats.Counts (c : PipelineStats) (offers : List Offer) : Prop where
  pulls : c.pulls = c.framesEmitted + c.emptyPulls + c.errors
  frames : c.framesEmitted = (offers.filterMap Offer.accepted?).length
  keyframes : c.keyframesEmitted = (offers.filterMap Offer.accepted?).countP fun i => i.frameType = .key
  bytes : c.bytesEmitted = ((offers.filterMap Offer.accepted?).map fun i => i.data.length).sum
  errors : c.errors = offers.countP fun x => x.2.isSome

theorem PipelineStats.pulls_pulled (c : PipelineStats) (offer : Option Offer) :
    (c.pulled offer).pulls = c.pulls + 1 := by
  rcases offer with _ | ⟨i, _ | err⟩ <;> rfl

namespace PipelineStats.Counts

variable {c : PipelineStats} {offers : List Offer}

theorem nil : ({} : PipelineStats).Counts [] := ⟨rfl, rfl, rfl, rfl, rfl⟩

/-- **One pull, counted once in each of its accounts.** -/
theorem pulled (h : c.Counts offers) (offer : Option Offer) : (c.pulled offer).Counts (offers ++ offer.toList) := by
  obtain ⟨hpulls, hframes, hkeyframes, hbytes, herrors⟩ := h
  rcases offer with _ | ⟨i, _ | err⟩
  · refine ⟨?_, ?_, ?_, ?_, ?_⟩ <;> simp only [PipelineStats.pulled, Option.toList_none, List.append_nil]
    · omega
    · exact hframes
    · exact hkeyframes
    · exact hbytes
    · exact herrors
  · refine ⟨?_, ?_, ?_, ?_, ?_⟩ <;>
      simp only [PipelineStats.pulled, PipelineStats.accept, Option.toList_some, List.filterMap_append,
        List.countP_append, List.length_append, List.map_append, List.sum_append]
    · omega
    · rw [hframes]
      rfl
    · have hone : ([(i, none)] : List Offer).filterMap Offer.accepted? = [i.image] := rfl
      rw [hkeyframes, hone]
      by_cases hkey : i.image.frameType = .key <;> simp [hkey]
    · rw [hbytes]
      simp [Offer.accepted?]
    · rw [herrors]
      rfl
  · refine ⟨?_, ?_, ?_, ?_, ?_⟩ <;>
      simp only [PipelineStats.pulled, Option.toList_some, List.filterMap_append, List.countP_append,
        List.length_append, List.map_append, List.sum_append]
    · omega
    · rw [hframes]
      rfl
    · rw [hkeyframes]
      rfl
    · rw [hbytes]
      rfl
    · rw [herrors]
      rfl

end PipelineStats.Counts

theorem Passthrough.emitted_credited (q : Passthrough) (c : PipelineStats) (offer : Option Offer) {n : Nat}
    (h : q.emitted = n + c.framesEmitted) : (q.credited offer).emitted = n + (c.pulled offer).framesEmitted := by
  rcases offer with _ | ⟨i, _ | err⟩
  · exact h
  · show q.emitted + 1 = n + (c.framesEmitted + 1)
    omega
  · exact h

/-! ### Whole runs -/

namespace Session

variable {p : Ref .pipeline} {x y : Pipeline} {q r : Passthrough} {b : Binding} {o : Ref .output}

/-- The counts of a pipeline and of its encoder are those of the raw frames and the offers so far. -/
structure Accounts (p : Ref .pipeline) (o : Ref .output) (n : Nat) (past : List Moment) (x : Pipeline)
    (q : Passthrough) : Prop where
  pulls : x.stats.pulls = past.countP fun m => m.reaches p
  counts : x.stats.Counts (offersOf p o past)
  emitted : q.emitted = n + x.stats.framesEmitted

/-- **One moment in the life of a pipeline.** -/
theorem accounts_turn {n : Nat} {past : List Moment} {m : Moment} (h : Accounts p o n past x q)
    (hturn : Turn m p b o x q y r) : Accounts p o n (past ++ [m]) y r := by
  cases hturn with
  | pulled raw offer hreach hoffers =>
    refine ⟨?_, ?_, q.emitted_credited x.stats offer h.emitted⟩
    · have hpulls : (x.stats.pulled offer).pulls = x.stats.pulls + 1 := x.stats.pulls_pulled offer
      rw [hpulls, h.pulls, List.countP_append, List.countP_singleton, if_pos hreach]
    · rw [offersOf_snoc, if_pos hreach, hoffers.filterMap_events.1]
      exact h.counts.pulled offer
  | passed hreach hstats _ hemitted =>
    have hnot : ¬ m.reaches p = true := by simp [hreach]
    refine ⟨?_, ?_, ?_⟩
    · rw [hstats, h.pulls, List.countP_append, List.countP_singleton, if_neg hnot]
      rfl
    · rw [offersOf_snoc, if_neg hnot, List.append_nil, hstats]
      exact h.counts
    · rw [hemitted, hstats]
      exact h.emitted

end Session

open Session in
/-- **The accounts of a pipeline agree.**  A pipeline is made around a passthrough encoder, bound or routed, that
no pipeline drives yet; from then on the application cannot get at the encoder.  Whatever it does, as long as the
pipeline is there it has pulled once for each raw frame that reached it, and each pull has emitted an image, come
back empty or failed; what was emitted is what the output accepted from this pipeline, image by image, and what
the encoder itself has counted since; and what failed is what the output refused. -/
theorem pipeline_accounts_agree {before after : List Action} {e : Ref .encoder} {q₀ : Passthrough}
    {settings : Settings} {o : Ref .output} {p : Ref .pipeline} {t : Session} {x : Pipeline}
    (hbefore : ∀ a ∈ before, a.Uncounted)
    (he : (({} : Session).run before).encoder? e = some (.passthrough q₀))
    (hfree : ∀ p' y, (({} : Session).run before).pipeline? p' = some y → y.encoder ≠ e)
    (hmade : (({} : Session).run before).addPipeline e settings o = (.ok p, t))
    (hafter : ∀ a ∈ after, a.Spares e ∧ a.Uncounted) (hx : (t.run after).pipeline? p = some x) :
    let offers := offersOf p o (t.moments after)
    let accepted := offers.filterMap Offer.accepted?
    x.stats.pulls = (t.moments after).countP (fun m => m.reaches p) ∧
    x.stats.pulls = x.stats.framesEmitted + x.stats.emptyPulls + x.stats.errors ∧
    (∃ q, (t.run after).encoder? e = some (.passthrough q) ∧
      q.emitted = q₀.emitted + x.stats.framesEmitted) ∧
    x.stats.framesEmitted = accepted.length ∧
    x.stats.keyframesEmitted = accepted.countP (fun i => i.frameType = .key) ∧
    x.stats.bytesEmitted = (accepted.map fun i => i.data.length).sum ∧
    x.stats.errors = offers.countP fun offer => offer.2.isSome := by
  intro offers accepted
  have hattributed := attributed_run hbefore attributed_empty
  obtain ⟨hmadeAttributed, q, hworks, hemitted⟩ := works_addPipeline hattributed he hfree hmade
  have hms : ∀ m ∈ t.moments after, m.beat.Does fun a => a.Spares e ∧ a.Uncounted :=
    fun m hm => does_of_mem_moments hafter hm
  have hstart : Accounts p o q₀.emitted [] { encoder := e } q := ⟨rfl, .nil, hemitted⟩
  have hend := hworks.history (J := Accounts p o q₀.emitted) (t.linked_moments after) hms hmadeAttributed hstart
    fun past m x q y r h hturn => accounts_turn h hturn
  rcases hend with hgone | ⟨y, r, hthere, hy⟩
  · rw [hgone.pipeline] at hx
    cases hx
  · obtain rfl : y = x := Option.some.inj (hthere.holds.pipeline.symm.trans hx)
    exact ⟨hy.pulls, hy.counts.pulls, ⟨r, hthere.holds.encoder, hy.emitted⟩, hy.counts.frames,
      hy.counts.keyframes, hy.counts.bytes, hy.counts.errors⟩

/-- Two sources, a routed encoder, and an output that takes one image. -/
def oneWelcome : List Action :=
  [.addRegistry, .addOutput (.failingAfter 1 .closed), .addSource ⟨1⟩ {}, .addSource ⟨1⟩ {},
    .addEncoder (.passthrough (Passthrough.make (.routed ⟨1⟩) .h264 {} none))]

/-- The session with a pipeline around the encoder. -/
def routedPipeline : Session :=
  ((({} : Session).run oneWelcome).addPipeline ⟨1⟩ ⟨.h264, 640, 480, 30, []⟩ ⟨1⟩).2

/-- An image is accepted, a pull is paused, an image is refused, a source cannot be found, another is closed. -/
def mixedFortunes : List Action :=
  [.attach ⟨1⟩ ⟨1⟩, .attach ⟨1⟩ ⟨2⟩, .capture ⟨1⟩ { width := 640, height := 480, isKey := true } [0x65, 1] 1,
    .hintRate ⟨1⟩ ⟨0⟩, .capture ⟨2⟩ { width := 640, height := 480 } [0x41] 2, .hintRate ⟨1⟩ ⟨500000⟩,
    .capture ⟨2⟩ { width := 640, height := 480 } [0x42] 3, .unregister ⟨1⟩ ⟨2⟩,
    .capture ⟨2⟩ { width := 640, height := 480 } [0x43] 4, .dropHandle ⟨1⟩]

theorem pipeline_accounts_agree_mixedFortunes :
    (({} : Session).run oneWelcome).addPipeline ⟨1⟩ ⟨.h264, 640, 480, 30, []⟩ ⟨1⟩ = (.ok ⟨1⟩, routedPipeline) ∧
    ∃ x, (routedPipeline.run mixedFortunes).pipeline? ⟨1⟩ = some x ∧
      x.stats = ⟨4, 1, 1, 2, 1, 2⟩ ∧
      x.stats.pulls = x.stats.framesEmitted + x.stats.emptyPulls + x.stats.errors ∧
      x.stats.framesEmitted
        = ((offersOf ⟨1⟩ ⟨1⟩ (routedPipeline.moments mixedFortunes)).filterMap Offer.accepted?).length := by
  have hmade : (({} : Session).run oneWelcome).addPipeline ⟨1⟩ ⟨.h264, 640, 480, 30, []⟩ ⟨1⟩
      = (.ok ⟨1⟩, routedPipeline) := rfl
  have hbefore : ∀ a ∈ oneWelcome, a.Uncounted := by
    simp [oneWelcome, Action.Uncounted, Encoder.Within, Passthrough.Within, Passthrough.make]
  have hfree : ∀ p' y, (({} : Session).run oneWelcome).pipeline? p' = some y → y.encoder ≠ ⟨1⟩ := by
    intro p' y hy
    have hnone : (({} : Session).run oneWelcome).pipelines = {} := rfl
    rw [Session.pipeline?, hnone, Table.get?_empty] at hy
    cases hy
  have hafter : ∀ a ∈ mixedFortunes, a.Spares ⟨1⟩ ∧ a.Uncounted := by
    simp [mixedFortunes, Action.Spares, Action.Uncounted]
  obtain ⟨x, hx⟩ : ∃ x, (routedPipeline.run mixedFortunes).pipeline? ⟨1⟩ = some x := ⟨_, rfl⟩
  have hagree := pipeline_accounts_agree hbefore rfl hfree hmade hafter hx
  refine ⟨hmade, x, hx, ?_, hagree.2.1, hagree.2.2.2.1⟩
  have hstats : (routedPipeline.run mixedFortunes).pipeline? ⟨1⟩
      = some ⟨⟨1⟩, false, ⟨4, 1, 1, 2, 1, 2⟩, [(⟨1⟩, 1), (⟨2⟩, 1)]⟩ := by decide +kernel
  rw [hstats] at hx
  cases hx
  rfl

end EncodedFeed
