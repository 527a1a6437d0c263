import EncodedFeed.Proofs.Encoder.Unseen
import EncodedFeed.Proofs.Table

/-!
# Encoders do not see each other

A call is made to an encoder that has been looked up before.  What it does to the session does not depend on
which other encoders there are, and leaves them alone: `callPassthrough_withEncoders`, `callLazy_withEncoders`.
So a call to one encoder gives the same whatever stands in the place of another: `call_setEncoder`.
-/

namespace EncodedFeed.Session

/-- The session with other encoders. -/
def withEncoders (s : Session) (x : Table Encoder) : Session := { s with encoders := x }

variable (s : Session) (x : Table Encoder)

/-! ### What a pull does to sources and outputs -/

theorem requestKeyframe_withEncoders (id : RoutingId) :
    (s.withEncoders x).requestKeyframe id = (s.requestKeyframe id).withEncoders x := by
  have hsame : (((s.withEncoders x).modifySource id Source.requestKeyframe).note (.asked id)).source? id
      = ((s.modifySource id Source.requestKeyframe).note (.asked id)).source? id := rfl
  unfold requestKeyframe
  dsimp only
  rw [hsame]
  cases (((s.modifySource id Source.requestKeyframe).note (.asked id)).source? id).bind Source.watcher <;> rfl

theorem take_withEncoders (id : RoutingId) :
    (s.withEncoders x).take id = ((s.take id).1, (s.take id).2.withEncoders x) := by
  have hsame : (s.withEncoders x).source? id = s.source? id := rfl
  unfold take
  rw [hsame]
  cases (s.source? id).bind fun src => src.take.1 <;> rfl

theorem present_withEncoders (d : Destination) (i : EmittedImage) :
    (s.withEncoders x).present d i = ((s.present d i).1, (s.present d i).2.withEncoders x) := by
  unfold present
  have hrefusal : ((s.withEncoders x).output? d.output).bind (fun o => (o.offer i).1)
      = (s.output? d.output).bind fun o => (o.offer i).1 := rfl
  rw [hrefusal]
  cases (s.output? d.output).bind fun o => (o.offer i).1 with
  | some e => rfl
  | none => cases d.counter <;> rfl

theorem passOn_withEncoders (p : Passthrough) (d : Destination) (id : RoutingId) (raw : RawFrame) :
    (s.withEncoders x).passOn p d id raw
      = ((s.passOn p d id raw).1, (s.passOn p d id raw).2.1, (s.passOn p d id raw).2.2.withEncoders x) := by
  unfold passOn
  rw [take_withEncoders]
  cases s.take id with
  | mk taken t =>
    cases taken with
    | none => rfl
    | some f =>
      dsimp only
      rw [present_withEncoders]
      cases t.present d (p.image f raw) with
      | mk refusal u => cases refusal <;> rfl

theorem pull_withEncoders (p : Passthrough) (raw : RawFrame) (types : List FrameType) :
    (s.withEncoders x).pull p raw types
      = ((s.pull p raw types).1, (s.pull p raw types).2.1, (s.pull p raw types).2.2.withEncoders x) := by
  unfold pull
  cases p.settings with
  | none => rfl
  | some settings =>
    cases p.destination with
    | none => rfl
    | some d =>
      have hresolve : (s.withEncoders x).resolve p.binding raw = s.resolve p.binding raw := rfl
      dsimp only
      rw [hresolve]
      cases s.resolve p.binding raw with
      | none => rfl
      | some id =>
        dsimp only
        have hask : (if types.contains .key then (s.withEncoders x).requestKeyframe id else s.withEncoders x)
            = (if types.contains .key then s.requestKeyframe id else s).withEncoders x := by
          cases types.contains .key with
          | true => exact s.requestKeyframe_withEncoders x id
          | false => rfl
        rw [hask]
        cases p.sending with
        | true => exact passOn_withEncoders _ x p d id raw
        | false => rfl

/-! ### Calls -/

theorem callFallback_withEncoders (f : Ref .fallback) (c : Call) :
    (s.withEncoders x).callFallback f c = ((s.callFallback f c).1, (s.callFallback f c).2.withEncoders x) := rfl

theorem unseen_withEncoders : Unseen (fun s => s.withEncoders x) id where
  pull s p raw types := s.pull_withEncoders x p raw types
  registry _ _ := rfl
  able _ _ := rfl
  ask _ _ _ := rfl
  callFallback s f c := by
    rw [c.retyped_id]
    exact s.callFallback_withEncoders x f c

theorem callPassthrough_withEncoders (p : Passthrough) (c : Call) :
    (s.withEncoders x).callPassthrough p c
      = ((s.callPassthrough p c).1, (s.callPassthrough p c).2.1,
          (s.callPassthrough p c).2.2.withEncoders x) := by
  have hcall := (unseen_withEncoders x).callPassthrough s p c
  rwa [c.retyped_id] at hcall

theorem callLazy_withEncoders (l : Lazy) (c : Call) :
    (s.withEncoders x).callLazy l c
      = ((s.callLazy l c).1, (s.callLazy l c).2.1, (s.callLazy l c).2.2.withEncoders x) := by
  have hcall := (unseen_withEncoders x).callLazy s l c
  rwa [c.retyped_id] at hcall

/-! ### Other encoders -/

theorem encoders_callPassthrough (p : Passthrough) (c : Call) :
    (s.callPassthrough p c).2.2.encoders = s.encoders := by
  have hsame := congrArg (fun r => r.2.2.encoders) (s.callPassthrough_withEncoders s.encoders p c)
  exact hsame

theorem encoders_callLazy (l : Lazy) (c : Call) : (s.callLazy l c).2.2.encoders = s.encoders := by
  have hsame := congrArg (fun r => r.2.2.encoders) (s.callLazy_withEncoders s.encoders l c)
  exact hsame

theorem setEncoder_comm {e e' : Ref .encoder} (hne : e' ≠ e) (y z : Encoder) :
    (s.setEncoder e y).setEncoder e' z = (s.setEncoder e' z).setEncoder e y := by
  have hnumber : e.number ≠ e'.number := fun heq => hne (congrArg Ref.mk heq.symm)
  have hcomm := s.encoders.modify_comm hnumber (fun _ => y) (fun _ => z)
  unfold setEncoder
  rw [hcomm]

/-- **A call to an encoder** does not depend on any other. -/
theorem call_setEncoder {e e' : Ref .encoder} (hne : e' ≠ e) (y : Encoder) (c : Call) :
    (s.setEncoder e y).call e' c = ((s.call e' c).1, (s.call e' c).2.setEncoder e y) := by
  unfold call
  rw [encoder?_setEncoder, if_neg hne.symm]
  cases s.encoder? e' with
  | none => rfl
  | some z =>
    cases z with
    | passthrough p =>
      have hcall := s.callPassthrough_withEncoders (s.encoders.modify e.number fun _ => y) p c
      have hstate : (s.callPassthrough p c).2.2.withEncoders (s.encoders.modify e.number fun _ => y)
          = (s.callPassthrough p c).2.2.setEncoder e y := by
        rw [withEncoders, setEncoder, encoders_callPassthrough]
      have hcall : (s.setEncoder e y).callPassthrough p c = _ := hcall
      dsimp only
      rw [hcall, hstate, setEncoder_comm _ hne]
    | lazy l =>
      have hcall := s.callLazy_withEncoders (s.encoders.modify e.number fun _ => y) l c
      have hstate : (s.callLazy l c).2.2.withEncoders (s.encoders.modify e.number fun _ => y)
          = (s.callLazy l c).2.2.setEncoder e y := by
        rw [withEncoders, setEncoder, encoders_callLazy]
      have hcall : (s.setEncoder e y).callLazy l c = _ := hcall
      dsimp only
      rw [hcall, hstate, setEncoder_comm _ hne]

theorem encoder?_call_of_ne {e e' : Ref .encoder} (hne : e' ≠ e) (c : Call) :
    (s.call e' c).2.encoders.next = s.encoders.next ∧ (s.call e' c).2.encoder? e = s.encoder? e := by
  unfold call
  cases s.encoder? e' with
  | none => exact ⟨rfl, rfl⟩
  | some z =>
    cases z with
    | passthrough p =>
      have hsame := s.encoders_callPassthrough p c
      dsimp only
      rw [encoder?_setEncoder, if_neg hne, setEncoder, Table.next_modify, encoder?, hsame]
      exact ⟨rfl, rfl⟩
    | lazy l =>
      have hsame := s.encoders_callLazy l c
      dsimp only
      rw [encoder?_setEncoder, if_neg hne, setEncoder, Table.next_modify, encoder?, hsame]
      exact ⟨rfl, rfl⟩

end EncodedFeed.Session
