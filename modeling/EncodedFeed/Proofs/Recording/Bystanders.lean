import EncodedFeed.Proofs.Recording.Turns
import EncodedFeed.Proofs.Session.Conservation

/-!
# What others do to a channel that is recorded

While a recording receives from a channel, the channel goes on: images are sent, and other receivers come, get
something and go.  `Channel.Sends` says what that is for the receiver of the recording, and every action of the
session that leaves this receiver alone does just that.
-/

namespace EncodedFeed

/-! ### Channels -/

namespace Channel

variable {c c' c'' : Channel} {n m : Nat} {images images' : List EmittedImage}

/-- The images were sent, and one of the receivers has got nothing meanwhile. -/
structure Sends (n : Nat) (images : List EmittedImage) (c c' : Channel) : Prop where
  capacity : c'.capacity = c.capacity
  numbers : c.nextReceiver ≤ c'.nextReceiver
  serves {dealt pending : List EmittedImage} :
    n < c.nextReceiver → c.Serves n dealt pending → c'.Serves n dealt (pending ++ images)

theorem Sends.trans (h : Sends n images c c') (h' : Sends n images' c' c'') :
    Sends n (images ++ images') c c'' where
  capacity := h'.capacity.trans h.capacity
  numbers := Nat.le_trans h.numbers h'.numbers
  serves {dealt pending} hn hs := by
    rw [← List.append_assoc]
    exact h'.serves (Nat.lt_of_lt_of_le hn h.numbers) (h.serves hn hs)

/-- Nothing is sent, and the receiver is where it was. -/
theorem sends_of_sent_eq (hsent : c'.sent = c.sent) (hcapacity : c'.capacity = c.capacity)
    (hnumbers : c.nextReceiver ≤ c'.nextReceiver)
    (hcursor : n < c.nextReceiver → c'.cursors.lookup n = c.cursors.lookup n) : Sends n [] c c' where
  capacity := hcapacity
  numbers := hnumbers
  serves {dealt pending} hn hs := by
    rw [List.append_nil]
    obtain ⟨earlier, hall, hat⟩ := hs
    exact ⟨earlier, hsent ▸ hall, (hcursor hn).trans hat⟩

theorem sends_nil (n : Nat) (c : Channel) : Sends n [] c c :=
  sends_of_sent_eq rfl rfl (Nat.le_refl _) fun _ => rfl

theorem sends_send (n : Nat) (c : Channel) (i : EmittedImage) : Sends n [i] c (c.send i) where
  capacity := by
    unfold send
    split <;> rfl
  numbers := by
    unfold send
    split <;> exact Nat.le_refl _
  serves {dealt pending} _ hs := by
    obtain ⟨earlier, hall, hat⟩ := hs
    have hlistening : c.cursors ≠ [] := by
      intro hnil
      rw [hnil] at hat
      cases hat
    rw [send, if_neg hlistening]
    refine ⟨earlier, ?_, hat⟩
    rw [Array.toList_push, hall, List.append_assoc]

theorem sends_offerAll (n : Nat) (images : List EmittedImage) (c : Channel) :
    ∃ c', (Output.channel c).offerAll images = .channel c' ∧ Sends n images c c' := by
  induction images generalizing c with
  | nil => exact ⟨c, rfl, sends_nil n c⟩
  | cons i rest ih =>
    obtain ⟨c', hoffered, hsends⟩ := ih (c.send i)
    exact ⟨c', hoffered, (sends_send n c i).trans hsends⟩

/-- A new receiver has a number of its own. -/
theorem sends_subscribe (n : Nat) (c : Channel) : Sends n [] c c.subscribe.2 := by
  refine sends_of_sent_eq rfl rfl (Nat.le_succ _) fun hn => ?_
  have hother : (n == c.nextReceiver) = false := by simp [Nat.ne_of_lt hn]
  rw [subscribe, List.lookup_cons, hother]

theorem sends_unsubscribe (c : Channel) (h : n ≠ m) : Sends n [] c (c.unsubscribe m) :=
  sends_of_sent_eq rfl rfl (Nat.le_refl _) fun _ => lookup_elsewhere h c.cursors

theorem sends_receive (c : Channel) (h : n ≠ m) : Sends n [] c (c.receive m).2 := by
  have hmoved : ∀ position, Sends n [] c (c.moveTo m position) := by
    intro position
    refine sends_of_sent_eq rfl rfl (Nat.le_refl _) fun _ => ?_
    rw [lookup_moveTo, if_neg h]
  unfold receive
  dsimp only
  split
  · exact hmoved _
  · split
    · exact hmoved _
    · exact sends_nil n c

end Channel

/-! ### Actions -/

/-- The action is not the receiver's, which is the recording's alone. -/
def Action.LeavesReceiver (o : Ref .output) (receiver : Nat) (a : Action) : Prop :=
  a ≠ .receive o receiver ∧ a ≠ .unsubscribe o receiver

namespace Session

variable {s : Session} {o : Ref .output} {n : Nat} {c : Channel}

theorem output?_of_channel? (h : s.channel? o = some c) : s.output? o = some (.channel c) := by
  rw [channel?, Option.bind_eq_some_iff] at h
  obtain ⟨out, hout, hchannel⟩ := h
  cases out with
  | channel c' => cases hchannel; exact hout
  | collector _ | guarded _ _ => cases hchannel

theorem channel?_present (s : Session) (d : Destination) (i : EmittedImage) (h : s.channel? o = some c) :
    (s.present d i).2.channel? o = some (if d.output = o then c.send i else c) := by
  have hout := (s.present_snd d i).2.2
  rw [channel?, output?, hout, ← output?, output?_modifyOutput, output?_of_channel? h]
  split <;> rfl

/-- The application looks after other receivers, or after the channel as a whole. -/
theorem channel?_of_readsOutput {a : Action} (ha : a.readsOutput = true) (hleaves : a.LeavesReceiver o n)
    (h : s.channel? o = some c) : ∃ c', (s.perform a).2.channel? o = some c' ∧ Channel.Sends n [] c c' := by
  have hmodify : ∀ (o' : Ref .output) (f : Channel → Channel), (o' = o → Channel.Sends n [] c (f c)) →
      ∃ c', (s.modifyChannel o' f).channel? o = some c' ∧ Channel.Sends n [] c c' := by
    intro o' f hf
    rw [channel?_modifyChannel, h]
    split
    · next heq => exact ⟨f c, rfl, hf heq⟩
    · exact ⟨c, rfl, Channel.sends_nil n c⟩
  cases a with
  | collect o' =>
    refine ⟨c, ?_, Channel.sends_nil n c⟩
    rw [perform, channel?, output?_modifyOutput, output?_of_channel? h]
    split <;> rfl
  | subscribe o' => exact hmodify o' _ fun _ => Channel.sends_subscribe n c
  | unsubscribe o' m =>
    refine hmodify o' _ fun heq => Channel.sends_unsubscribe c ?_
    rintro rfl
    exact hleaves.2 (by rw [heq])
  | receive o' m =>
    refine hmodify o' _ fun heq => Channel.sends_receive c ?_
    rintro rfl
    exact hleaves.1 (by rw [heq])
  | dropOutput o' =>
    refine ⟨c, ?_, Channel.sends_nil n c⟩
    rw [← h]
    simp only [perform, dropOutput, channel?, output?, Table.get?_modify]
    split
    · rw [Option.map_map]
      rfl
    · rfl
  | _ => cases ha

/-- **An action** sends to a channel what it presents to it, and leaves alone the receiver it spares. -/
theorem channel?_perform {a : Action} (hleaves : a.LeavesReceiver o n) (h : s.channel? o = some c) :
    ∃ c', (s.perform a).2.channel? o = some c' ∧
      Channel.Sends n (presentedTo o (Step.events ⟨s, a⟩)) c c' := by
  by_cases ha : a.readsOutput = true
  · have hnothing : Step.events ⟨s, a⟩ = [] := by
      refine eventsSince_eq ?_
      cases a <;> first | rfl | cases ha
    rw [hnothing]
    exact channel?_of_readsOutput ha hleaves h
  · have hout := output?_of_channel? h
    have hhands := (Step.balanced ⟨s, a⟩).handsOver
    by_cases htake : ∃ id, a = .take id
    · obtain ⟨id, rfl⟩ := htake
      obtain ⟨f, -, hevents⟩ := hhands
      have hnothing : presentedTo o (Step.events ⟨s, .take id⟩) = [] := by
        rw [hevents]
        cases f <;> rfl
      have hsame : (s.take id).2.outputs = s.outputs := by
        unfold take
        split <;> rfl
      rw [hnothing]
      refine ⟨c, ?_, Channel.sends_nil n c⟩
      rw [← h, perform, channel?, output?, hsame]
      rfl
    · have hoffered : (s.perform a).2.output? o
          = some ((Output.channel c).offerAll (presentedTo o (Step.events ⟨s, a⟩))) := by
        unfold Step.HandsOver at hhands
        split at hhands
        · next id heq => exact absurd ⟨id, heq⟩ htake
        · exact hhands.2 (Bool.eq_false_iff.mpr ha) o _ hout
      obtain ⟨c', hc', hsends⟩ := Channel.sends_offerAll n (presentedTo o (Step.events ⟨s, a⟩)) c
      refine ⟨c', ?_, hsends⟩
      rw [channel?, hoffered, hc']
      rfl

end Session

end EncodedFeed
