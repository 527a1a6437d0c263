import EncodedFeed.Proofs.Encoder.Transparency
import EncodedFeed.Proofs.Session.Moments

/-!
# Where images are counted

The images of an encoder are counted with a pipeline if it is connected so.  That is arranged when a pipeline
is made, and by nothing else that an application can do (`Action.Uncounted`), so the images of an encoder are
counted with its own pipelines only (`Session.Attributed`).  It helps that no pipeline is ever given another
encoder (`Session.SameDrivers`).
-/

namespace EncodedFeed

/-- The action does not make an encoder count its images with a pipeline. -/
def Action.Uncounted : Action → Prop
  | addEncoder x => x.Within fun d => d.counter = none
  | call _ c => c.Within fun d => d.counter = none
  | _ => True

/-- The action leaves pipelines and encoders alone. -/
def Action.quiet : Action → Bool
  | addEncoder _ | addPipeline .. | call .. | dropEncoder _ | attach .. | detach _ | wantKeyframe _
  | hintRate .. | dropPipeline _ => false
  | a => !a.handsOut

theorem Encoder.Within.mono {x : Encoder} {D D' : Destination → Prop} (h : x.Within D)
    (hD : ∀ d, D d → D' d) : x.Within D' := by
  cases x with
  | passthrough p => exact fun d hd => hD d (h d hd)
  | lazy l => exact ⟨fun d hd => hD d (h.own d hd), fun p hp d hd => hD d (h.chosen p hp d hd)⟩

namespace Session

variable {s t : Session}

/-! ### What leaves pipelines alone -/

theorem tables_requestKeyframe (s : Session) (id : RoutingId) :
    (s.requestKeyframe id).pipelines = s.pipelines ∧ (s.requestKeyframe id).encoders = s.encoders := by
  unfold requestKeyframe
  dsimp only
  split <;> exact ⟨rfl, rfl⟩

theorem tables_take (s : Session) (id : RoutingId) :
    (s.take id).2.pipelines = s.pipelines ∧ (s.take id).2.encoders = s.encoders := by
  unfold take
  split <;> exact ⟨rfl, rfl⟩

/-- An image changes a count of the pipeline it is counted with, if any. -/
theorem pipelines_present (s : Session) (d : Destination) (i : EmittedImage) :
    (s.present d i).2.pipelines = s.pipelines ∨ ∃ p, d.counter = some p ∧
      (s.present d i).2.pipelines
        = s.pipelines.modify p.number fun x => { x with stats := x.stats.accept i.image } := by
  unfold present
  dsimp only
  split
  · next p _ hp => exact .inr ⟨p, hp, rfl⟩
  · exact .inl rfl

theorem pipelines_passOn (s : Session) (p : Passthrough) (d : Destination) (id : RoutingId) (raw : RawFrame) :
    (s.passOn p d id raw).2.2.pipelines = s.pipelines ∨ ∃ p' f, d.counter = some p' ∧
      (∀ x : Pipeline, (f x).encoder = x.encoder) ∧
      (s.passOn p d id raw).2.2.pipelines = s.pipelines.modify p'.number f := by
  have htake := (s.tables_take id).1
  unfold passOn
  split
  · next heq =>
    rw [heq] at htake
    exact .inl htake
  · next f t heq =>
    rw [heq] at htake
    have hpresent := t.pipelines_present d (p.image f raw)
    rw [htake] at hpresent
    split <;> next heq' =>
      rw [heq'] at hpresent
      rcases hpresent with hsame | ⟨p', hp', hcount⟩
      · exact .inl hsame
      · refine .inr ⟨p', _, hp', ?_, hcount⟩
        intro x
        rfl

theorem tables_of_quiet (s : Session) {a : Action} (ha : a.quiet = true) :
    (s.perform a).2.pipelines = s.pipelines ∧ (s.perform a).2.encoders = s.encoders := by
  have hregister : ∀ (t : Session) r id source, (t.register r id source).2.pipelines = t.pipelines ∧
      (t.register r id source).2.encoders = t.encoders := by
    intro t r id source
    unfold register
    split <;> exact ⟨rfl, rfl⟩
  cases a with
  | addSource r c => exact hregister { s with sources := s.sources.add (Source.ofConfig c r) } r _ _
  | register r id source => exact hregister s r id source
  | requestKeyframe id => exact s.tables_requestKeyframe id
  | dropHandle id =>
    simp only [perform, dropHandle]
    split
    · exact ⟨rfl, rfl⟩
    · split <;> exact ⟨rfl, rfl⟩
  | take id => exact s.tables_take id
  | addEncoder | addPipeline | call | dropEncoder | attach | detach | wantKeyframe | hintRate | dropPipeline
  | capture | push | emit | pushRaw => cases ha
  | _ => exact ⟨rfl, rfl⟩

/-! ### Drivers -/

/-- From `s` to `t` no pipeline is made, and none is given another encoder. -/
structure SameDrivers (s t : Session) : Prop where
  next : t.pipelines.next = s.pipelines.next
  driver (p : Ref .pipeline) (y : Pipeline) : t.pipeline? p = some y →
    ∃ x, s.pipeline? p = some x ∧ x.encoder = y.encoder

namespace SameDrivers

theorem trans {u : Session} (h : SameDrivers s t) (h' : SameDrivers t u) : SameDrivers s u where
  next := h'.next.trans h.next
  driver p z hz := by
    obtain ⟨y, hy, hyz⟩ := h'.driver p z hz
    obtain ⟨x, hx, hxy⟩ := h.driver p y hy
    exact ⟨x, hx, hxy.trans hyz⟩

theorem of_eq (h : t.pipelines = s.pipelines) : SameDrivers s t where
  next := by rw [h]
  driver p y hy := by
    rw [pipeline?, h] at hy
    exact ⟨y, hy, rfl⟩

theorem modify (s : Session) (p : Ref .pipeline) {f : Pipeline → Pipeline}
    (hf : ∀ x, (f x).encoder = x.encoder) (h : t.pipelines = s.pipelines.modify p.number f) :
    SameDrivers s t where
  next := by rw [h, Table.next_modify]
  driver q y hy := by
    rw [pipeline?, h, Table.get?_modify] at hy
    split at hy
    · obtain ⟨x, hx, rfl⟩ := Option.map_eq_some_iff.mp hy
      exact ⟨x, hx, (hf x).symm⟩
    · exact ⟨y, hy, rfl⟩

theorem erase (s : Session) (p : Ref .pipeline) :
    SameDrivers s { s with pipelines := s.pipelines.erase p.number } where
  next := Table.next_erase ..
  driver q y hy := by
    rw [pipeline?, Table.get?_erase] at hy
    split at hy
    · cases hy
    · exact ⟨y, hy, rfl⟩

theorem kept : Kept SameDrivers where
  refl _ := of_eq rfl
  trans := trans
  warn _ _ := of_eq rfl
  ask s id := of_eq (s.tables_requestKeyframe id).1
  passOn s p d id raw := by
    rcases s.pipelines_passOn p d id raw with h | ⟨p', f, -, hf, h⟩
    · exact of_eq h
    · exact modify s p' hf h
  fallback _ _ _ := of_eq rfl
  encoder _ _ _ := of_eq rfl

theorem carried : Carried SameDrivers where
  refl _ := of_eq rfl
  trans := trans
  warn _ _ := of_eq rfl
  call := kept.call
  drop _ _ := of_eq rfl
  pipeline s p _ hf := modify s p hf rfl
  recorder _ _ _ := of_eq rfl
  pump _ _ _ _ := of_eq rfl

end SameDrivers

theorem sameDrivers_dropPipeline (s : Session) (p : Ref .pipeline) : SameDrivers s (s.dropPipeline p) :=
  SameDrivers.carried.dropPipeline SameDrivers.erase s p

/-! ### Attribution -/

/-- If the images for a destination are counted, it is with a pipeline that has been made around the
encoder. -/
def Credits (s : Session) (e : Ref .encoder) (d : Destination) : Prop :=
  ∀ p, d.counter = some p → p.number < s.pipelines.next ∧ ∀ x, s.pipeline? p = some x → x.encoder = e

/-- No encoder has its images counted with the pipeline of another. -/
def Attributed (s : Session) : Prop := ∀ e x, s.encoder? e = some x → x.Within (s.Credits e)

theorem credits_of_counter_eq_none {e : Ref .encoder} {d : Destination} (h : d.counter = none) :
    s.Credits e d := by
  intro p hp
  rw [h] at hp
  cases hp

theorem SameDrivers.credits (h : SameDrivers s t) {e : Ref .encoder} {d : Destination}
    (hd : s.Credits e d) : t.Credits e d := by
  intro p hp
  obtain ⟨hlt, hx⟩ := hd p hp
  refine ⟨by rw [h.next]; exact hlt, ?_⟩
  intro y hy
  obtain ⟨x, hxs, hxy⟩ := h.driver p y hy
  rw [← hxy]
  exact hx x hxs

/-- Encoders are as they were, or are connected as is right. -/
theorem SameDrivers.attributed (hd : SameDrivers s t) (h : s.Attributed)
    (he : ∀ e x, t.encoder? e = some x → s.encoder? e = some x ∨ x.Within (s.Credits e)) :
    t.Attributed := by
  intro e x hx
  rcases he e x hx with hs | hw
  · exact (h e x hs).mono fun _ => hd.credits
  · exact hw.mono fun _ => hd.credits

theorem attributed_call (h : s.Attributed) (e : Ref .encoder) {c : Call} (hc : c.Within (s.Credits e)) :
    (s.call e c).2.Attributed := by
  apply (SameDrivers.kept.call s e c).attributed h
  intro e' x hx
  by_cases hne : e = e'
  · subst hne
    exact .inr (((SameDrivers.kept.keptAt _).call s (fun y hy => h e y hy) hc).2 x hx)
  · rw [(s.encoder?_call_of_ne hne c).2] at hx
    exact .inl hx

theorem attributed_of_eq (h : s.Attributed) (hp : t.pipelines = s.pipelines)
    (he : t.encoders = s.encoders) : t.Attributed := by
  apply (SameDrivers.of_eq hp).attributed h
  intro e x hx
  rw [encoder?, he] at hx
  exact .inl hx

theorem attributed_modify (h : s.Attributed) (p : Ref .pipeline) {f : Pipeline → Pipeline}
    (hf : ∀ x, (f x).encoder = x.encoder) : (s.modifyPipeline p f).Attributed := by
  have hsame : SameDrivers s (s.modifyPipeline p f) := .modify s p hf rfl
  apply hsame.attributed h
  intro e x hx
  exact .inl hx

theorem attributed_dropEncoder (h : s.Attributed) (e : Ref .encoder) : (s.dropEncoder e).Attributed := by
  have hsame : SameDrivers s (s.dropEncoder e) := .of_eq rfl
  apply hsame.attributed h
  intro e' x hx
  rw [encoder?_dropEncoder] at hx
  split at hx
  · cases hx
  · exact .inl hx

theorem attributed_tally (h : s.Attributed) (p : Ref .pipeline) (r : Except Error Outcome) :
    (s.tally p r).Attributed := by
  unfold tally
  split
  · exact h
  · exact attributed_modify h p fun _ => rfl
  · refine attributed_of_eq (attributed_modify h p ?_) rfl rfl
    exact fun _ => rfl

theorem attributed_feed (h : s.Attributed) (p : Ref .pipeline) (raw : RawFrame) :
    (s.feed p raw).Attributed := by
  unfold feed
  split
  · exact h
  · next x _ =>
    dsimp only
    apply attributed_tally
    apply attributed_call
    · exact attributed_modify h p fun _ => rfl
    · intro d hd
      cases hd

/-- A pipeline more takes nothing away. -/
theorem credits_add {e : Ref .encoder} {d : Destination} (h : s.Credits e d) (x : Pipeline) :
    ({ s with pipelines := s.pipelines.add x } : Session).Credits e d := by
  intro p hp
  obtain ⟨hlt, hx⟩ := h p hp
  constructor
  · rw [Table.next_add]
    omega
  · intro y hy
    rw [pipeline?, Table.get?_add, if_neg (by omega)] at hy
    exact hx y hy

/-- The two calls by which a pipeline is made connect its encoder to the output, and no other. -/
theorem connect_calls (h : s.Attributed) (e : Ref .encoder) (settings : Settings) (d : Destination) :
    let t := ((s.call e (.init settings)).2.call e (.connect d)).2
    SameDrivers s t ∧ (∀ e', e' ≠ e → t.encoder? e' = s.encoder? e') ∧
      ∀ x, t.encoder? e = some x → x.Within fun d' => s.Credits e d' ∨ d' = d := by
  intro t
  have hinit : (Call.init settings).Within fun d' => s.Credits e d' ∨ d' = d := by
    intro d' hd'
    cases hd'
  have hconnect : (Call.connect d).Within fun d' => s.Credits e d' ∨ d' = d := by
    intro d' hd'
    cases hd'
    exact .inr rfl
  have hfirst := (SameDrivers.kept.keptAt _).call s
    (fun x hx => (h e x hx).mono fun _ hd' => .inl hd') hinit
  have hsecond := (SameDrivers.kept.keptAt _).call _ hfirst.2 hconnect
  refine ⟨hfirst.1.trans hsecond.1, ?_, hsecond.2⟩
  intro e' hne
  rw [(encoder?_call_of_ne _ hne.symm _).2, (encoder?_call_of_ne _ hne.symm _).2]

/-- What making a pipeline comes to: the two calls, after which there is one pipeline more, or else the encoder
is gone. -/
theorem addPipeline_cases (s : Session) (e : Ref .encoder) (settings : Settings) (o : Ref .output) :
    let t := ((s.call e (.init settings)).2.call e (.connect ⟨o, some ⟨s.pipelines.next⟩⟩)).2
    (s.addPipeline e settings o).2 = (s.call e (.init settings)).2.dropEncoder e ∨
    (s.addPipeline e settings o).2 = t.dropEncoder e ∨
    (s.addPipeline e settings o).2 = { t with pipelines := t.pipelines.add { encoder := e } } := by
  intro t
  unfold addPipeline
  dsimp only
  split
  · next heq => exact .inl (by rw [heq])
  · next u heq =>
    have ht : t = (u.call e (.connect ⟨o, some ⟨s.pipelines.next⟩⟩)).2 := by
      show ((s.call e (.init settings)).2.call e _).2 = _
      rw [heq]
    split
    · next heq' =>
      rw [heq'] at ht
      exact .inr (.inl (by rw [ht]))
    · next heq' =>
      rw [heq'] at ht
      exact .inr (.inr (by rw [ht]))

theorem attributed_addPipeline (h : s.Attributed) (e : Ref .encoder) (settings : Settings)
    (o : Ref .output) : (s.addPipeline e settings o).2.Attributed := by
  have hinit := attributed_call h e (c := .init settings) fun d hd => by cases hd
  obtain ⟨hsame, hothers, hwithin⟩ := connect_calls h e settings ⟨o, some ⟨s.pipelines.next⟩⟩
  rcases s.addPipeline_cases e settings o with heq | heq | heq
  · rw [heq]
    exact attributed_dropEncoder hinit e
  · rw [heq]
    have hdropped := hsame.trans (.of_eq (t := dropEncoder _ e) rfl)
    apply hdropped.attributed h
    intro e' x hx
    rw [encoder?_dropEncoder] at hx
    split at hx
    · cases hx
    · next hne =>
      rw [hothers e' fun heq => hne heq.symm] at hx
      exact .inl hx
  · rw [heq]
    intro e' x hx
    by_cases hne : e' = e
    · subst hne
      apply (hwithin x hx).mono
      rintro d (hd | rfl)
      · exact credits_add (hsame.credits hd) _
      · rintro p hp
        cases hp
        constructor
        · rw [Table.next_add, hsame.next]
          exact Nat.lt_succ_self _
        · intro y hy
          rw [pipeline?, Table.get?_add, hsame.next, if_pos rfl] at hy
          cases hy
          rfl
    · have hx' := (hothers e' hne).symm.trans hx
      apply (h e' x hx').mono
      intro d hd
      exact credits_add (hsame.credits hd) _

theorem tables_removeTaps (taps : List (RoutingId × TapId)) (s : Session) :
    (taps.foldl (fun s a => (s.removeTap a.1 a.2).2) s).pipelines = s.pipelines ∧
    (taps.foldl (fun s a => (s.removeTap a.1 a.2).2) s).encoders = s.encoders := by
  induction taps generalizing s with
  | nil => exact ⟨rfl, rfl⟩
  | cons a rest ih => exact ih _

/-- A pipeline that is detached forgets its attachments, and that is all that changes with it. -/
theorem tables_detach (s : Session) (p : Ref .pipeline) :
    (s.detach p).pipelines = s.pipelines.modify p.number (fun x => { x with attachments := [] }) ∧
    (s.detach p).encoders = s.encoders := by
  unfold detach
  split
  · next h =>
    have hnone : s.pipelines.get? p.number = none := h
    exact ⟨(Table.modify_of_get?_eq_none _ hnone _).symm, rfl⟩
  · exact tables_removeTaps _ _

theorem tables_checkRelease (s : Session) (r : Except Error Outcome) :
    (s.checkRelease r).pipelines = s.pipelines ∧ (s.checkRelease r).encoders = s.encoders := by
  unfold checkRelease
  split <;> exact ⟨rfl, rfl⟩

theorem attributed_detach (h : s.Attributed) (p : Ref .pipeline) : (s.detach p).Attributed := by
  obtain ⟨hp, he⟩ := s.tables_detach p
  have hsame : SameDrivers s (s.detach p) := by
    refine .modify s p ?_ hp
    exact fun _ => rfl
  apply hsame.attributed h
  intro e x hx
  rw [encoder?, he] at hx
  exact .inl hx

theorem attributed_dropPipeline (h : s.Attributed) (p : Ref .pipeline) : (s.dropPipeline p).Attributed := by
  unfold dropPipeline
  split
  · exact h
  · next x _ =>
    dsimp only
    have hreleased := attributed_call (attributed_detach h p) x.encoder (c := .release) fun d hd => by cases hd
    obtain ⟨hp, he⟩ := tables_checkRelease ((s.detach p).call x.encoder .release).2
      ((s.detach p).call x.encoder .release).1
    have hdropped := attributed_dropEncoder (attributed_of_eq hreleased hp he) x.encoder
    apply (SameDrivers.erase _ p).attributed hdropped
    intro e y hy
    exact .inl hy

/-- What an action that hands out nothing leaves of the attribution. -/
theorem attributed_perform (h : s.Attributed) {a : Action} (ha : a.Uncounted) (hout : a.handsOut = false) :
    (s.perform a).2.Attributed := by
  by_cases hquiet : a.quiet = true
  · obtain ⟨hp, he⟩ := s.tables_of_quiet hquiet
    exact attributed_of_eq h hp he
  cases a with
  | addEncoder x =>
    have hsame : SameDrivers s (s.addEncoder x).2 := .of_eq rfl
    apply hsame.attributed h
    intro e y hy
    simp only [addEncoder, encoder?, Table.get?_add] at hy
    split at hy
    · cases hy
      exact .inr (ha.mono fun _ => credits_of_counter_eq_none)
    · exact .inl hy
  | call e c => exact attributed_call h e fun d hd => credits_of_counter_eq_none (ha d hd)
  | addPipeline e settings o => exact attributed_addPipeline h e settings o
  | dropEncoder e => exact attributed_dropEncoder h e
  | attach p id => exact attributed_modify (s := (s.addTap id (.pipeline p)).2) h p fun _ => rfl
  | detach p => exact attributed_detach h p
  | wantKeyframe p => exact attributed_modify h p fun _ => rfl
  | hintRate p hint =>
    simp only [perform, hintRate]
    split
    · exact h
    · exact attributed_call h _ fun d hd => by cases hd
  | dropPipeline p => exact attributed_dropPipeline h p
  | _ => exact absurd (by simp_all [Action.quiet]) hquiet

theorem tables_checkDepth (s : Session) (id : RoutingId) :
    (s.checkDepth id).pipelines = s.pipelines ∧ (s.checkDepth id).encoders = s.encoders := by
  unfold checkDepth
  split
  · split <;> exact ⟨rfl, rfl⟩
  · exact ⟨rfl, rfl⟩

theorem attributed_beat (h : s.Attributed) {b : Beat} (hb : b.Does Action.Uncounted) :
    (s.beat b).Attributed := by
  cases b with
  | act a => exact attributed_perform h hb.2 hb.1
  | warn w => exact attributed_of_eq h rfl rfl
  | enter id f =>
    obtain ⟨hp, he⟩ := tables_checkDepth ((s.modifySource id fun src => src.enqueue f).note (.pushed id f)) id
    exact attributed_of_eq h hp he
  | stamp id capture now => exact attributed_of_eq h rfl rfl
  | hand raw tap =>
    cases tap with
    | pipeline p => exact attributed_feed h p raw
    | recorder r => exact attributed_of_eq h rfl rfl

/-- **Attribution is kept by whatever an application can do.** -/
theorem attributed_run {actions : List Action} (hu : ∀ a ∈ actions, a.Uncounted) (h : s.Attributed) :
    (s.run actions).Attributed := by
  apply (s.linked_moments actions).history (I := fun _ t => t.Attributed) [] h
  intro past m hm hs
  exact attributed_beat hs (does_of_mem_moments hu hm)

theorem attributed_empty : ({} : Session).Attributed := by
  intro e x hx
  have hnone : ({} : Session).encoder? e = none := Table.get?_empty e.number
  rw [hnone] at hx
  cases hx

end Session

end EncodedFeed
