import EncodedFeed.Proofs.Encoder.Transparency
import EncodedFeed.Proofs.Registry.Holdings
import EncodedFeed.Proofs.Session.Labels
import Mathlib.Tactic.Set

/-!
# What a routed factory offers

Whether there is a source for a name can be asked in several ways: look for the source, ask the factory, have it make
an encoder, read its formats, or ask the registry for its codecs.  Each of them makes its own scan, over registrations
or over codecs, by name or by codec.  They agree (`ViewsAgree`), since a name names one codec at most, and since no id
is registered twice (`Unambiguous`), so that a source with the smallest id is the only one.
-/

namespace EncodedFeed

/-! ### Registrations -/

/-- With no key twice, what is looked up is what is there. -/
theorem lookup_eq_some_iff_mem {α β : Type} [DecidableEq α] {l : List (α × β)} (h : (l.map Prod.fst).Nodup) {a : α}
    {b : β} : l.lookup a = some b ↔ (a, b) ∈ l := by
  induction l with
  | nil => simp
  | cons e rest ih =>
    obtain ⟨k, v⟩ := e
    obtain ⟨hnot, hrest⟩ := List.nodup_cons.mp h
    rw [List.lookup_cons, List.mem_cons, Prod.mk.injEq]
    by_cases ha : a = k
    · rw [ha, BEq.rfl]
      constructor
      · intro hb
        exact .inl ⟨rfl, (Option.some.inj hb).symm⟩
      · rintro (⟨-, rfl⟩ | hin)
        · rfl
        · exact absurd (List.mem_map_of_mem hin) hnot
    · have hne : (a == k) = false := beq_eq_false_iff_ne.mpr ha
      rw [hne]
      refine (ih hrest).trans ⟨.inr, ?_⟩
      rintro (⟨hk, -⟩ | hin)
      · exact absurd hk ha
      · exact hin

/-- No id is registered twice. -/
def Registry.Unambiguous (x : Registry) : Prop := (x.entries.map Prod.fst).Nodup

namespace Registry.Unambiguous

variable {x : Registry}

theorem empty : Registry.Unambiguous {} := List.nodup_nil

theorem erase (h : x.Unambiguous) (id : RoutingId) : (x.erase id).Unambiguous :=
  h.sublist (List.filter_sublist.map Prod.fst)

theorem insert (h : x.Unambiguous) {id : RoutingId} (hfree : x.contains id = false) (source : RoutingId) :
    (x.insert id source).Unambiguous := by
  refine List.nodup_cons.mpr ⟨fun hin => ?_, h⟩
  obtain ⟨⟨i, src⟩, he, rfl⟩ := List.mem_map.mp hin
  have hfound : x.find? i = some src := (lookup_eq_some_iff_mem h).mpr he
  rw [contains, hfound] at hfree
  cases hfree

end Registry.Unambiguous

namespace Session

variable {s t : Session} {r : Ref .registry}

/-- A change to one registry is a change to that registry, if there is such a one. -/
theorem registry_modifyRegistry_cases (s : Session) (r : Ref .registry) (f : Registry → Registry)
    (r' : Ref .registry) : (s.modifyRegistry r f).registry r' = s.registry r' ∨
      r' = r ∧ (s.modifyRegistry r f).registry r' = f (s.registry r) := by
  simp only [registry, modifyRegistry, Table.get?_modify]
  split
  · next heq =>
    have hr : r' = r := by
      cases r
      cases r'
      exact congrArg Ref.mk heq.symm
    subst hr
    cases s.registries.get? r'.number with
    | none => exact .inl rfl
    | some x => exact .inr ⟨rfl, rfl⟩
  · exact .inl rfl

theorem unambiguous_modifyRegistry (h : ∀ r, (s.registry r).Unambiguous) {f : Registry → Registry}
    (hf : (f (s.registry r)).Unambiguous) (r' : Ref .registry) :
    ((s.modifyRegistry r f).registry r').Unambiguous := by
  rcases s.registry_modifyRegistry_cases r f r' with heq | ⟨-, heq⟩
  · rw [heq]
    exact h r'
  · rw [heq]
    exact hf

theorem unambiguous_register (h : ∀ r, (s.registry r).Unambiguous) (r : Ref .registry) (id source : RoutingId)
    (r' : Ref .registry) : ((s.register r id source).2.registry r').Unambiguous := by
  unfold register
  split
  · exact h r'
  · next hfree => exact unambiguous_modifyRegistry h ((h r).insert (Bool.eq_false_iff.mpr hfree) source) r'

/-- **No action registers an id twice**, not even one that registers by hand. -/
theorem unambiguous_perform (h : ∀ r, (s.registry r).Unambiguous) (a : Action) (r' : Ref .registry) :
    ((s.perform a).2.registry r').Unambiguous := by
  cases ha : a.sparesHandles with
  | true =>
    rw [(s.tenured_perform ha).registry r']
    exact h r'
  | false =>
    cases a with
    | addSource r c =>
      exact unambiguous_register (s := { s with sources := s.sources.add (Source.ofConfig c r) }) h r _ _ r'
    | register r id source => exact unambiguous_register h r id source r'
    | unregister r id => exact unambiguous_modifyRegistry h ((h r).erase id) r'
    | addHandle id => exact h r'
    | dropHandle id =>
      unfold perform dropHandle
      dsimp only
      split
      · exact h r'
      · next src _ =>
        split
        · exact h r'
        · exact unambiguous_modifyRegistry h ((h src.home).erase id) r'
    | _ => cases ha

theorem unambiguous_run (actions : List Action) (h : ∀ r, (s.registry r).Unambiguous) (r : Ref .registry) :
    ((s.run actions).registry r).Unambiguous := by
  induction actions generalizing s with
  | nil => exact h r
  | cons a rest ih => exact ih fun r' => unambiguous_perform h a r'

theorem Registers.unambiguous {births : List (RoutingId × Ref .registry)} {holders : List RoutingId}
    (h : s.Registers births holders) (r : Ref .registry) : (s.registry r).Unambiguous := by
  have hkeys : (s.registry r).entries.map Prod.fst = living births holders r := by
    rw [h.entries r, List.map_map]
    exact List.map_id _
  rw [Registry.Unambiguous, hkeys]
  exact h.distinct.sublist (List.filter_sublist.map Prod.fst)

/-! ### The source with the smallest id -/

/-- Of several registrations one with the smallest id comes out. -/
theorem foldl_earlier (rest : List (RoutingId × RoutingId)) (e : RoutingId × RoutingId) :
    rest.foldl earlier e ∈ e :: rest ∧ ∀ x ∈ e :: rest, (rest.foldl earlier e).1.number ≤ x.1.number := by
  induction rest generalizing e with
  | nil =>
    refine ⟨List.mem_singleton_self e, fun x hx => ?_⟩
    rw [List.mem_singleton.mp hx]
    exact Nat.le_refl _
  | cons b rest ih =>
    obtain ⟨hin, hleast⟩ := ih (earlier e b)
    have hchoice : earlier e b = e ∧ e.1.number ≤ b.1.number ∨ earlier e b = b ∧ b.1.number ≤ e.1.number := by
      unfold earlier
      split
      · next hle => exact .inl ⟨rfl, hle⟩
      · next hgt => exact .inr ⟨rfl, by omega⟩
    have hhead := hleast _ List.mem_cons_self
    refine ⟨?_, fun x hx => ?_⟩
    · rw [List.foldl_cons]
      rcases List.mem_cons.mp hin with heq | hin
      · rw [heq]
        rcases hchoice with ⟨hself, -⟩ | ⟨hself, -⟩ <;> rw [hself] <;> simp
      · exact List.mem_cons_of_mem _ (List.mem_cons_of_mem _ hin)
    · rw [List.foldl_cons]
      rcases List.mem_cons.mp hx with rfl | hx
      · rcases hchoice with ⟨hself, -⟩ | ⟨hself, hle⟩ <;> rw [hself] at hhead ⊢ <;> omega
      · rcases List.mem_cons.mp hx with rfl | hx
        · rcases hchoice with ⟨hself, hle⟩ | ⟨hself, -⟩ <;> rw [hself] at hhead ⊢ <;> omega
        · exact hleast x (List.mem_cons_of_mem _ hx)

/-- The source is of the codec of this name. -/
def carries (s : Session) (src : RoutingId) (name : String) : Prop :=
  ∃ x, s.source? src = some x ∧ Codec.sameName x.codec.sdpName name = true

theorem mem_registered {c : Codec} {e : RoutingId × RoutingId} : e ∈ s.registered r c ↔
    e ∈ (s.registry r).entries ∧ ∃ x, s.source? e.2 = some x ∧ x.codec = c := by
  rw [registered, List.mem_filter, Option.any_eq_true]
  simp only [beq_iff_eq]

/-- A source of the codec of a name is one of the codec that the name names. -/
theorem mem_registered_iff_carries {name : String} {c : Codec} (hname : Codec.ofSdpName? name = some c)
    {e : RoutingId × RoutingId} : e ∈ s.registered r c ↔ e ∈ (s.registry r).entries ∧ s.carries e.2 name := by
  rw [mem_registered]
  refine and_congr_right fun _ => exists_congr fun x => and_congr_right fun _ => ?_
  rw [← Codec.ofSdpName?_eq_some_iff, hname, Option.some.injEq]
  exact eq_comm

/-- Nothing is found just when nothing is registered. -/
theorem findByCodec_of_name {name : String} {c : Codec} (hname : Codec.ofSdpName? name = some c) :
    s.registered r c = [] ∧ s.findByCodec r name = none ∨
      ∃ e ∈ s.registered r c, s.findByCodec r name = some e.2 ∧
        ∀ x ∈ s.registered r c, e.1.number ≤ x.1.number := by
  rw [findByCodec, hname, Option.bind_some]
  cases s.registered r c with
  | nil => exact .inl ⟨rfl, rfl⟩
  | cons e rest =>
    obtain ⟨hin, hleast⟩ := foldl_earlier rest e
    exact .inr ⟨_, hin, rfl, hleast⟩

/-- **The source found for a name** is the one with the smallest id. -/
theorem findByCodec_eq_some_iff (h : (s.registry r).Unambiguous) {name : String} {src : RoutingId} :
    s.findByCodec r name = some src ↔ ∃ id, (s.registry r).find? id = some src ∧ s.carries src name ∧
      ∀ id' src', (s.registry r).find? id' = some src' → s.carries src' name → id.number ≤ id'.number := by
  simp only [Registry.find?, lookup_eq_some_iff_mem h]
  cases hname : Codec.ofSdpName? name with
  | none =>
    constructor
    · intro hfound
      rw [findByCodec, hname] at hfound
      cases hfound
    · rintro ⟨-, -, ⟨x, -, hx⟩, -⟩
      rw [← Codec.ofSdpName?_eq_some_iff, hname] at hx
      cases hx
  | some c =>
    rcases findByCodec_of_name (s := s) (r := r) hname with ⟨hnil, hnone⟩ | ⟨e, he, hsome, hleast⟩
    · rw [hnone]
      constructor
      · intro hfound
        cases hfound
      · rintro ⟨id, hin, hcarries, -⟩
        have hmem := (mem_registered_iff_carries hname).mpr ⟨hin, hcarries⟩
        rw [hnil] at hmem
        cases hmem
    · rw [hsome, Option.some.injEq]
      obtain ⟨hein, hecarries⟩ := (mem_registered_iff_carries hname).mp he
      constructor
      · rintro rfl
        refine ⟨e.1, hein, hecarries, fun id' src' hin hcarries => ?_⟩
        exact hleast (id', src') ((mem_registered_iff_carries hname).mpr ⟨hin, hcarries⟩)
      · rintro ⟨id, hin, hcarries, hsmallest⟩
        have hle := hleast (id, src) ((mem_registered_iff_carries hname).mpr ⟨hin, hcarries⟩)
        have hge := hsmallest e.1 e.2 hein hecarries
        have hid : e.1 = id := congrArg RoutingId.mk (Nat.le_antisymm hle hge)
        exact congrArg Prod.snd (List.inj_on_of_nodup_map h hein hin hid)

/-! ### Codecs -/

theorem mem_codecs {c : Codec} : c ∈ s.codecs r ↔ s.registered r c ≠ [] := by
  have hall : c ∈ Codec.all := by
    cases c <;> decide
  rw [codecs, List.mem_filter, Bool.not_eq_true', List.isEmpty_eq_false_iff]
  exact and_iff_right hall

theorem sublist_codecs (s : Session) (r : Ref .registry) : (s.codecs r).Sublist Codec.all := List.filter_sublist

theorem nodup_codecs (s : Session) (r : Ref .registry) : (s.codecs r).Nodup := by
  have hall : Codec.all.Nodup := by decide
  exact hall.sublist (s.sublist_codecs r)

/-- **A source is found for a name** if and only if its codec is among those of the registry. -/
theorem isSome_findByCodec_iff {name : String} : (s.findByCodec r name).isSome = true ↔
    ∃ c ∈ s.codecs r, Codec.ofSdpName? name = some c := by
  constructor
  · intro hsome
    cases hname : Codec.ofSdpName? name with
    | none =>
      rw [findByCodec, hname] at hsome
      cases hsome
    | some c =>
      refine ⟨c, mem_codecs.mpr fun hnil => ?_, rfl⟩
      rw [findByCodec, hname, Option.bind_some, hnil] at hsome
      cases hsome
  · rintro ⟨c, hc, hname⟩
    rcases findByCodec_of_name (s := s) (r := r) hname with ⟨hnil, -⟩ | ⟨e, -, hfound, -⟩
    · exact absurd hnil (mem_codecs.mp hc)
    · rw [hfound]
      rfl

/-- A codec of a registry has a given name if and only if a source is found for the name. -/
theorem any_codecs_eq (s : Session) (r : Ref .registry) (name : String) :
    ((s.codecs r).any fun c => Codec.sameName c.sdpName name) = (s.findByCodec r name).isSome := by
  rw [Bool.eq_iff_iff, isSome_findByCodec_iff, List.any_eq_true]
  simp only [Codec.ofSdpName?_eq_some_iff]

end Session

/-! ### Factories -/

theorem Codec.sameName_self (name : String) : sameName name name = true := beq_self_eq_true _

/-- The format of a codec goes by the name of the codec. -/
theorem SdpFormat.name_forCodec (c : Codec) (mode : PacketizationMode) : (forCodec c mode).name = c.sdpName := by
  cases c <;> rfl

theorem SdpFormat.codec?_forCodec (c : Codec) (mode : PacketizationMode) : (forCodec c mode).codec? = some c := by
  rw [codec?, name_forCodec]
  exact Codec.ofSdpName?_eq_some_iff.mpr (Codec.sameName_self _)

namespace PassthroughFactory

variable {f : PassthroughFactory} {r : Ref .registry} {s t : Session}

/-- **A factory that is bound to a source does not refuse its codec.** -/
theorem create?_own {id : RoutingId} {c : Codec} (hf : f.binding = .source id c) (mode : PacketizationMode) :
    s.create? (.passthrough f) (.forCodec c mode)
      = (some (s.addEncoder (.passthrough (Passthrough.make (.bound id) c f.config f.index))).1,
        (s.addEncoder (.passthrough (Passthrough.make (.bound id) c f.config f.index))).2) := by
  have hserves : f.serves s.findByCodec (SdpFormat.forCodec c mode).name = true := by
    rw [serves, hf, SdpFormat.name_forCodec]
    exact Codec.sameName_self _
  have hbinding : f.encoderBinding = .bound id := by
    rw [encoderBinding, hf]
  have hmade : f.create? s.findByCodec (.forCodec c mode) = some (Passthrough.make (.bound id) c f.config f.index) := by
    rw [create?, if_pos hserves, hbinding, SdpFormat.codec?_forCodec, Option.map_some]
  rw [Session.create?, Factory.create?, hmade, Option.map_some]

theorem serves_eq_findByCodec (hf : f.binding = .registry r) (name : String) :
    s.serves f name = (s.findByCodec r name).isSome := by
  rw [Session.serves, serves, hf]

/-- A factory serves the names of the codecs it offers. -/
theorem serves_eq (s : Session) (f : PassthroughFactory) (name : String) :
    s.serves f name = (f.codecs s.codecs).any fun c => Codec.sameName c.sdpName name := by
  cases hf : f.binding with
  | source id codec => simp [Session.serves, serves, codecs, hf]
  | registry r => rw [serves_eq_findByCodec hf, codecs, hf, s.any_codecs_eq r name]

theorem any_formats_eq (hf : f.binding = .registry r) (name : String) :
    ((s.formats (.passthrough f)).any fun g => Codec.sameName g.name name) = (s.findByCodec r name).isSome := by
  rw [← serves_eq_findByCodec hf, serves_eq, Session.formats, Factory.formats, formats, List.any_map]
  refine congrArg (f.codecs s.codecs).any (funext fun c => ?_)
  rw [Function.comp_apply, SdpFormat.name_forCodec]

/-- What a routed factory makes for a format, if there is a source for it: an encoder for its codec. -/
theorem create?_of_found (hf : f.binding = .registry r) {format : SdpFormat} {c : Codec}
    (hname : Codec.ofSdpName? format.name = some c) (hfound : (s.findByCodec r format.name).isSome = true) :
    s.create? (.passthrough f) format
      = (some (s.addEncoder (.passthrough (Passthrough.make (.routed r) c f.config f.index))).1,
        (s.addEncoder (.passthrough (Passthrough.make (.routed r) c f.config f.index))).2) := by
  have hserves : f.serves s.findByCodec format.name = true := (serves_eq_findByCodec hf format.name).trans hfound
  have hbinding : f.encoderBinding = .routed r := by
    rw [encoderBinding, hf]
  have hmade : f.create? s.findByCodec format = some (Passthrough.make (.routed r) c f.config f.index) := by
    rw [create?, if_pos hserves, hbinding, SdpFormat.codec?, hname, Option.map_some]
  rw [Session.create?, Factory.create?, hmade, Option.map_some]

theorem create?_of_not_found (hf : f.binding = .registry r) {format : SdpFormat}
    (hfound : ¬ (s.findByCodec r format.name).isSome = true) :
    s.create? (.passthrough f) format = (none, s) := by
  have hserves : ¬ f.serves s.findByCodec format.name = true := by
    intro hyes
    exact hfound ((serves_eq_findByCodec hf format.name).symm.trans hyes)
  have hmade : f.create? s.findByCodec format = none := by
    rw [create?, if_neg hserves]
  rw [Session.create?, Factory.create?, hmade, Option.map_none]

theorem isSome_create? (hf : f.binding = .registry r) (format : SdpFormat) :
    (s.create? (.passthrough f) format).1.isSome = (s.findByCodec r format.name).isSome := by
  by_cases hfound : (s.findByCodec r format.name).isSome = true
  · obtain ⟨c, -, hname⟩ := Session.isSome_findByCodec_iff.mp hfound
    rw [create?_of_found hf hname hfound, hfound, Option.isSome_some]
  · rw [create?_of_not_found hf hfound, Bool.eq_false_iff.mpr hfound, Option.isSome_none]

/-- An encoder made for a format can be set up for the codec of the format. -/
theorem init_created (hf : f.binding = .registry r) {format : SdpFormat} {e : Ref .encoder}
    (h : s.create? (.passthrough f) format = (some e, t)) {settings : Settings}
    (hcodec : Codec.ofSdpName? format.name = some settings.codec) (hwidth : settings.width ≠ 0)
    (hheight : settings.height ≠ 0) : (t.call e (.init settings)).1 = .ok .noOutput := by
  by_cases hfound : (s.findByCodec r format.name).isSome = true
  · rw [create?_of_found hf hcodec hfound, Prod.mk.injEq, Option.some.injEq] at h
    obtain ⟨rfl, rfl⟩ := h
    set p := Passthrough.make (.routed r) settings.codec f.config f.index with hp
    have hmade := s.encoder?_addEncoder_self (.passthrough p)
    obtain ⟨q, hq⟩ := p.init_of_valid hwidth hheight rfl
    simp only [Session.call, hmade, Session.callPassthrough, hq]
  · rw [create?_of_not_found hf hfound] at h
    cases h

end PassthroughFactory

/-! ### All views -/

/-- The views of what can be served from a registry agree.  `live` tells the sources that are there, each with the id
it is there under. -/
structure Session.ViewsAgree (s : Session) (r : Ref .registry) (live : RoutingId → RoutingId → Prop) : Prop where
  /-- The source found for a name has the smallest id of all sources of its codec. -/
  found (name : String) (src : RoutingId) : s.findByCodec r name = some src ↔
    ∃ id, live id src ∧ s.carries src name ∧
      ∀ id' src', live id' src' → s.carries src' name → id.number ≤ id'.number
  /-- Codecs come once each and in order. -/
  codecs : (s.codecs r).Nodup ∧ (s.codecs r).Sublist Codec.all
  /-- The registry has the codec of a name. -/
  known (name : String) :
    (∃ c ∈ s.codecs r, Codec.ofSdpName? name = some c) ↔ (s.findByCodec r name).isSome = true
  serves (f : PassthroughFactory) (name : String) : f.binding = .registry r →
    s.serves f name = (s.findByCodec r name).isSome
  /-- A factory lists a format of the name. -/
  listed (f : PassthroughFactory) (name : String) : f.binding = .registry r →
    ((s.formats (.passthrough f)).any fun g => Codec.sameName g.name name) = (s.findByCodec r name).isSome
  makes (f : PassthroughFactory) (format : SdpFormat) : f.binding = .registry r →
    (s.create? (.passthrough f) format).1.isSome = (s.findByCodec r format.name).isSome
  /-- What is made can be set up for the codec it was made for, in any size. -/
  accepts (f : PassthroughFactory) (format : SdpFormat) (e : Ref .encoder) (t : Session) (settings : Settings) :
    f.binding = .registry r → s.create? (.passthrough f) format = (some e, t) →
      Codec.ofSdpName? format.name = some settings.codec → settings.width ≠ 0 → settings.height ≠ 0 →
        (t.call e (.init settings)).1 = .ok .noOutput

/-- All views agree where no id is registered twice. -/
theorem Session.viewsAgree_of_unambiguous {s : Session} {r : Ref .registry} (h : (s.registry r).Unambiguous) :
    s.ViewsAgree r fun id src => (s.registry r).find? id = some src where
  found _ _ := findByCodec_eq_some_iff h
  codecs := ⟨s.nodup_codecs r, s.sublist_codecs r⟩
  known _ := isSome_findByCodec_iff.symm
  serves _ name hf := PassthroughFactory.serves_eq_findByCodec hf name
  listed _ name hf := PassthroughFactory.any_formats_eq hf name
  makes _ format hf := PassthroughFactory.isSome_create? hf format
  accepts _ _ _ _ _ hf hmade hcodec hwidth hheight :=
    PassthroughFactory.init_created hf hmade hcodec hwidth hheight

/-- **A factory offers what it can serve**, however sources come and go: whatever has been done to a session, with
sources registered by hand or not, each view of what can be served from a registry tells the same.  If nobody
registers by hand, the sources that count are those made in the registry that somebody holds. -/
theorem routed_views_agree :
    (∀ (actions : List Action) (r : Ref .registry), let s := ({} : Session).run actions
      s.ViewsAgree r fun id src => (s.registry r).find? id = some src) ∧
    ∀ (dealings : List Dealing) (r : Ref .registry), let w := ({} : Holdings).run dealings
      w.session.ViewsAgree r fun id src => src = id ∧ (id, r) ∈ w.births ∧ 0 < w.held id := by
  constructor
  · intro actions r
    refine Session.viewsAgree_of_unambiguous (Session.unambiguous_run actions (fun r' => ?_) r)
    rw [Session.registry, Table.get?_empty]
    exact .empty
  · intro dealings r w
    have hw : w.session.Registers w.births w.holders := Holdings.sound_run Holdings.sound_empty dealings
    have hlive : (fun id src => src = id ∧ (id, r) ∈ w.births ∧ 0 < w.held id)
        = fun id src => (w.session.registry r).find? id = some src := by
      funext id src
      rw [hw.find?, eq_iff_iff, Holdings.held, List.count_pos_iff]
      split
      · next hheld =>
        rw [Option.some.injEq]
        exact ⟨fun h => h.1.symm, fun h => ⟨h.symm, hheld⟩⟩
      · next hnot =>
        refine ⟨fun h => absurd h.2 hnot, fun h => ?_⟩
        cases h
    rw [hlive]
    exact Session.viewsAgree_of_unambiguous (hw.unambiguous r)

end EncodedFeed
