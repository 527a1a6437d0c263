import EncodedFeed.Proofs.Toml.Lines

/-!
# The keys of a table are independent

Every line of a document alters one key of it, and at most one key of a table it finds there (`Local`).  So it makes
no difference to a line what other keys hold, and lines may be added to a document: where its other lines alone make
one that has nothing under some keys of some sections, lines that give values to these keys, each no more than once
and under the header of its section, only add their values to it (`build_of_otherLines`).
-/

namespace EncodedFeed.Toml

namespace Entries

/-- The value of a key of a section. -/
def at? (es : Entries) (name key : String) : Option Value :=
  match es.lookup name with
  | some (.table _ fields) => fields.lookup key
  | _ => none

/-- A table that may be added to stands under the name. -/
def IsOpen (es : Entries) (name : String) : Prop :=
  ∃ origin fields, origin ≠ .inline ∧ es.lookup name = some (.table origin fields)

/-! ### Altering one key -/

section Alter

variable {key : String} {f : Option Value → Except Fault Value} {es es' : Entries}

theorem lookup_cons (k key : String) (v : Value) (es : Entries) :
    List.lookup key ((k, v) :: es) = if k = key then some v else es.lookup key := by
  rw [List.lookup_cons]
  by_cases h : k = key
  · simp [h]
  · have hne : (key == k) = false := by simpa using Ne.symm h
    rw [hne, if_neg h]

/-- Altering gives the key its new value and leaves the others. -/
theorem alter_eq_ok (h : es.alter key f = .ok es') :
    ∃ v, f (es.lookup key) = .ok v ∧ ∀ k, es'.lookup k = if key = k then some v else es.lookup k := by
  induction es generalizing es' with
  | nil =>
    obtain ⟨v, hv, rfl⟩ := exists_of_map_eq_ok h
    exact ⟨v, hv, fun k => lookup_cons key k v []⟩
  | cons entry es ih =>
    obtain ⟨k, w⟩ := entry
    rw [alter] at h
    rw [lookup_cons]
    by_cases hk : k = key
    · subst hk
      rw [if_pos rfl] at h ⊢
      obtain ⟨v, hv, rfl⟩ := exists_of_map_eq_ok h
      refine ⟨v, hv, fun k' => ?_⟩
      rw [lookup_cons, lookup_cons]
      by_cases hk' : k = k' <;> simp [hk']
    · rw [if_neg hk] at h ⊢
      obtain ⟨es'', hes'', rfl⟩ := exists_of_map_eq_ok h
      obtain ⟨v, hv, hlookup⟩ := ih hes''
      refine ⟨v, hv, fun k' => ?_⟩
      rw [lookup_cons, lookup_cons, hlookup]
      by_cases hk' : k = k'
      · subst hk'
        simp [Ne.symm hk]
      · simp [hk']

/-- Altering fails only where the new value does. -/
theorem exists_alter {v : Value} (h : f (es.lookup key) = .ok v) :
    ∃ es', es.alter key f = .ok es' ∧ ∀ k, es'.lookup k = if key = k then some v else es.lookup k := by
  have hok : ∃ es', es.alter key f = .ok es' := by
    induction es with
    | nil =>
      rw [List.lookup_nil] at h
      exact ⟨_, by rw [alter, h]; rfl⟩
    | cons entry es ih =>
      obtain ⟨k, w⟩ := entry
      rw [lookup_cons] at h
      rw [alter]
      by_cases hk : k = key
      · rw [if_pos hk] at h ⊢
        exact ⟨_, by rw [h]; rfl⟩
      · rw [if_neg hk] at h ⊢
        obtain ⟨es', hes'⟩ := ih h
        exact ⟨_, by rw [hes']; rfl⟩
  obtain ⟨es', hes'⟩ := hok
  obtain ⟨w, hw, hlookup⟩ := alter_eq_ok hes'
  obtain rfl : v = w := Except.ok.inj (h.symm.trans hw)
  exact ⟨es', hes', hlookup⟩

end Alter

/-! ### What a line does -/

/-- A change alters one key, or none. -/
def Single (change : Entries → Except Fault Entries) : Prop :=
  (∀ es, change es = .ok es) ∨ ∃ key f, ∀ es, change es = alter key f es

/-- A new value for a key, where the key has a table: there is none, or a table in which one key is altered, or
none. -/
def Meets (f : Option Value → Except Fault Value) : Prop :=
  ∀ origin, (∀ fields v, f (some (.table origin fields)) ≠ .ok v) ∨
    ∃ origin' change, origin ≠ .inline ∧ origin' ≠ .inline ∧ Single change ∧
      ∀ fields, f (some (.table origin fields)) = (change fields).map (.table origin')

/-- A change alters one key, and one or none of a table it finds there. -/
def Local (change : Entries → Except Fault Entries) : Prop :=
  ∃ name f, Meets f ∧ ∀ es, change es = alter name f es

theorem Local.single {change : Entries → Except Fault Entries} (h : Local change) : Single change := by
  obtain ⟨name, f, -, h⟩ := h
  exact .inr ⟨name, f, h⟩

/-- Dotted keys alter the first of their parts. -/
theorem single_putDotted (part : String) (path : List String) (key : String) (value : Value) (open? : Bool) :
    Single (putDotted (part :: path) key value open?) :=
  .inr ⟨part, _, fun _ => rfl⟩

theorem local_putDotted (path : List String) (key : String) (value : Value) :
    Local (putDotted path key value true) := by
  induction path with
  | nil => exact ⟨key, ifAbsent key value, fun _ => .inl fun _ _ h => (nomatch h), fun _ => rfl⟩
  | cons part path ih =>
    refine ⟨part, _, fun origin => ?_, fun _ => rfl⟩
    cases origin with
    | header => exact .inl fun _ _ h => nomatch h
    | inline => exact .inl fun _ _ h => nomatch h
    | dotted => exact .inr ⟨.dotted, _, nofun, nofun, ih.single, fun _ => rfl⟩
    | implied =>
      -- a table implied by headers gets no keys of its own
      cases path with
      | nil => exact .inl fun _ _ h => nomatch h
      | cons next path =>
        exact .inr ⟨.implied, _, nofun, nofun, single_putDotted next path key value false, fun _ => rfl⟩

theorem local_within {change : Entries → Except Fault Entries} (h : Local change) (path : List String) :
    Local (within path change) := by
  induction path with
  | nil => exact h
  | cons part path ih =>
    refine ⟨part, _, fun origin => ?_, fun _ => rfl⟩
    cases origin with
    | inline => exact .inl fun _ _ h => nomatch h
    | header => exact .inr ⟨.header, _, nofun, nofun, ih.single, fun _ => rfl⟩
    | implied => exact .inr ⟨.implied, _, nofun, nofun, ih.single, fun _ => rfl⟩
    | dotted => exact .inr ⟨.dotted, _, nofun, nofun, ih.single, fun _ => rfl⟩

theorem meets_asHeader (key : String) : Meets (asHeader key) := by
  intro origin
  cases origin with
  | implied => exact .inr ⟨.header, .ok, nofun, nofun, .inl fun _ => rfl, fun _ => rfl⟩
  | header => exact .inl fun _ _ h => nomatch h
  | dotted => exact .inl fun _ _ h => nomatch h
  | inline => exact .inl fun _ _ h => nomatch h

theorem meets_asItem (key : String) : Meets (asItem key) := fun _ => .inl fun _ _ h => nomatch h

theorem local_openTable (path : List String) (isItem : Bool) : Local fun es => es.openTable path isItem := by
  refine local_within ⟨path.getLastD "", _, ?_, fun _ => rfl⟩ path.dropLast
  cases isItem
  · exact meets_asHeader _
  · exact meets_asItem _

/-! ### Documents with values added -/

/-- Of these keys a table has the values that are given, and of the others those of another table. -/
def Adds (keys : List String) (given : String → Option Value) (fields others : Entries) : Prop :=
  ∀ key, fields.lookup key = if key ∈ keys then given key else others.lookup key

/-- What stands under a name is the same as in another document, or it is a table there with the given values added. -/
def ExtendsAt (keys : List String) (given : String → Option Value) (here there : Option Value) : Prop :=
  (here = there ∧ ∀ key ∈ keys, given key = none) ∨
    ∃ origin fields others, origin ≠ .inline ∧ here = some (.table origin fields) ∧
      there = some (.table origin others) ∧ Adds keys given fields others

/-- A document is another one in whose sections the given values are added, for such keys as each of them has. -/
def Extends (keys : String → List String) (given : String → String → Option Value) (es rest : Entries) : Prop :=
  ∀ name, ExtendsAt (keys name) (given name) (es.lookup name) (rest.lookup name)

/-- One more value is given. -/
def giving (given : String → String → Option Value) (name key : String) (value : Value) :
    String → String → Option Value :=
  fun n k => if n = name ∧ k = key then some value else given n k

theorem giving_of_ne {given : String → String → Option Value} {name n : String} (h : n ≠ name) (key : String)
    (value : Value) : giving given name key value n = given n := by
  funext k
  rw [giving, if_neg fun heq => h heq.1]

/-- A document has nothing under these keys of its sections. -/
def Lacks (keys : String → List String) (es : Entries) : Prop :=
  ∀ name, ∀ key ∈ keys name, es.at? name key = none

section Extends

variable {keys : String → List String} {given : String → String → Option Value}
  {change : Entries → Except Fault Entries} {es es' rest rest' : Entries}

theorem Extends.congr {given' : String → String → Option Value} (h : Extends keys given es rest)
    (hgiven : ∀ name, ∀ key ∈ keys name, given name key = given' name key) : Extends keys given' es rest := by
  intro name
  obtain ⟨hsame, hnone⟩ | ⟨origin, fields, others, hne, hfields, hothers, hadds⟩ := h name
  · exact .inl ⟨hsame, fun key hkey => (hgiven name key hkey) ▸ hnone key hkey⟩
  · refine .inr ⟨origin, fields, others, hne, hfields, hothers, fun key => ?_⟩
    rw [hadds]
    split
    · next hkey => exact hgiven name key hkey
    · rfl

/-- Under the keys of its sections stands what is given, where the other document has nothing there. -/
theorem Extends.at?_eq (h : Extends keys given es rest) (hlacks : Lacks keys rest) {name key : String}
    (hkey : key ∈ keys name) : es.at? name key = given name key := by
  obtain ⟨hsame, hnone⟩ | ⟨origin, fields, others, -, hfields, -, hadds⟩ := h name
  · rw [hnone key hkey, ← hlacks name key hkey, at?, at?, hsame]
  · rw [at?, hfields]
    exact (hadds key).trans (if_pos hkey)

/-- A change of one key of a table is not kept from it by values of other keys. -/
theorem Single.adds {names : List String} {values : String → Option Value} (h : Single change)
    (hadds : Adds names values es rest) (hchange : change rest = .ok rest')
    (hlacks : ∀ key ∈ names, rest'.lookup key = none) :
    ∃ es', change es = .ok es' ∧ Adds names values es' rest' := by
  obtain h | ⟨key, f, h⟩ := h
  · rw [h] at hchange
    cases hchange
    exact ⟨es, h es, hadds⟩
  · rw [h] at hchange
    obtain ⟨v, hv, hrest'⟩ := alter_eq_ok hchange
    have hkey : key ∉ names := by
      intro hmem
      have hnone := hlacks key hmem
      rw [hrest', if_pos rfl] at hnone
      cases hnone
    have hsame : es.lookup key = rest.lookup key := by rw [hadds, if_neg hkey]
    rw [← hsame] at hv
    obtain ⟨es', hes', hlookup⟩ := exists_alter hv
    refine ⟨es', (h es).trans hes', fun k => ?_⟩
    rw [hlookup, hrest', hadds]
    by_cases hk : key = k
    · subst hk
      simp [hkey]
    · simp [hk]

/-- The new value of a key is not kept from what it is by values added. -/
theorem Meets.extendsAt {names : List String} {values : String → Option Value}
    {f : Option Value → Except Fault Value} (h : Meets f) {here there : Option Value}
    (hext : ExtendsAt names values here there) {v : Value} (hv : f there = .ok v)
    (hlacks : ∀ origin fields, v = .table origin fields → ∀ key ∈ names, fields.lookup key = none) :
    ∃ w, f here = .ok w ∧ ExtendsAt names values (some w) (some v) := by
  obtain ⟨rfl, hnone⟩ | ⟨origin, fields, others, -, rfl, rfl, hadds⟩ := hext
  · exact ⟨v, hv, .inl ⟨rfl, hnone⟩⟩
  · obtain hrefuses | ⟨origin', change, -, hne, hsingle, hmap⟩ := h origin
    · exact absurd hv (hrefuses others v)
    · rw [hmap] at hv
      obtain ⟨others', hothers', rfl⟩ := exists_of_map_eq_ok hv
      obtain ⟨fields', hfields', hadds'⟩ := hsingle.adds hadds hothers' (hlacks origin' others' rfl)
      exact ⟨_, by rw [hmap, hfields']; rfl, .inr ⟨origin', _, _, hne, rfl, rfl, hadds'⟩⟩

/-- A line is not kept from what it does by values added. -/
theorem Local.extends (h : Local change) (hext : Extends keys given es rest) (hchange : change rest = .ok rest')
    (hlacks : Lacks keys rest') : ∃ es', change es = .ok es' ∧ Extends keys given es' rest' := by
  obtain ⟨name, f, hmeets, h⟩ := h
  rw [h] at hchange
  obtain ⟨v, hv, hrest'⟩ := alter_eq_ok hchange
  have hnone (origin : Origin) (fields : Entries) (htable : v = .table origin fields) :
      ∀ key ∈ keys name, fields.lookup key = none := by
    intro key hkey
    have hkey := hlacks name key hkey
    rwa [at?, hrest', if_pos rfl, htable] at hkey
  obtain ⟨w, hw, hnew⟩ := hmeets.extendsAt (hext name) hv hnone
  obtain ⟨es', hes', hlookup⟩ := exists_alter hw
  refine ⟨es', (h es).trans hes', fun k => ?_⟩
  rw [hlookup, hrest']
  by_cases hk : name = k
  · subst hk
    rw [if_pos rfl, if_pos rfl]
    exact hnew
  · rw [if_neg hk, if_neg hk]
    exact hext k

/-- What a line leaves of a table: it stays one, and keeps its keys. -/
theorem Local.table (h : Local change) (hchange : change es = .ok es') {name : String} {origin : Origin}
    {fields : Entries} (htable : es.lookup name = some (.table origin fields)) :
    ∃ origin' fields', es'.lookup name = some (.table origin' fields') ∧ (origin ≠ .inline → origin' ≠ .inline) ∧
      ∀ key, fields'.lookup key = none → fields.lookup key = none := by
  obtain ⟨altered, f, hmeets, h⟩ := h
  rw [h] at hchange
  obtain ⟨v, hv, hlookup⟩ := alter_eq_ok hchange
  by_cases hname : altered = name
  · subst hname
    rw [htable] at hv
    obtain hrefuses | ⟨origin', change, -, hne, hsingle, hmap⟩ := hmeets origin
    · exact absurd hv (hrefuses fields v)
    · rw [hmap] at hv
      obtain ⟨fields', hfields', rfl⟩ := exists_of_map_eq_ok hv
      refine ⟨origin', fields', by rw [hlookup, if_pos rfl], fun _ => hne, fun key hnone => ?_⟩
      obtain hkeeps | ⟨k, g, halters⟩ := hsingle
      · rw [hkeeps] at hfields'
        cases hfields'
        exact hnone
      · rw [halters] at hfields'
        obtain ⟨w, -, hothers⟩ := alter_eq_ok hfields'
        rw [hothers] at hnone
        by_cases hk : k = key
        · rw [if_pos hk] at hnone
          cases hnone
        · rwa [if_neg hk] at hnone
  · exact ⟨origin, fields, by rw [hlookup, if_neg hname, htable], id, fun _ => id⟩

/-- No line takes a value away. -/
theorem Local.lacks (h : Local change) (hchange : change es = .ok es') (hlacks : Lacks keys es') :
    Lacks keys es := by
  intro name key hkey
  have hnone := hlacks name key hkey
  unfold at? at hnone ⊢
  split
  · next origin fields htable =>
    obtain ⟨origin', fields', htable', -, hkeys⟩ := h.table hchange htable
    rw [htable'] at hnone
    exact hkeys key hnone
  · rfl

/-- No line closes a table. -/
theorem Local.isOpen (h : Local change) (hchange : change es = .ok es') {name : String} (hopen : es.IsOpen name) :
    es'.IsOpen name := by
  obtain ⟨origin, fields, hne, htable⟩ := hopen
  obtain ⟨origin', fields', htable', hne', -⟩ := h.table hchange htable
  exact ⟨origin', fields', hne' hne, htable'⟩

theorem asHeader_eq_ok {key : String} {v? : Option Value} {v : Value} (h : asHeader key v? = .ok v) :
    ∃ fields, v = .table .header fields := by
  unfold asHeader at h
  split at h <;> cases h
  · exact ⟨[], rfl⟩
  · exact ⟨_, rfl⟩

/-- The header of a table opens it. -/
theorem isOpen_openTable {name : String} (hopen : es.openTable [name] false = .ok es') : es'.IsOpen name := by
  have halter : es.alter name (asHeader name) = .ok es' := hopen
  obtain ⟨v, hv, hlookup⟩ := alter_eq_ok halter
  obtain ⟨fields, rfl⟩ := asHeader_eq_ok hv
  exact ⟨.header, fields, nofun, by rw [hlookup, if_pos rfl]⟩

/-- An open section of the document without values is one of the document with them. -/
theorem Extends.table (hext : Extends keys given es rest) (hlacks : Lacks keys rest) {name : String}
    (hopen : rest.IsOpen name) :
    ∃ origin fields others, origin ≠ .inline ∧ es.lookup name = some (.table origin fields) ∧
      rest.lookup name = some (.table origin others) ∧ Adds (keys name) (given name) fields others := by
  obtain ⟨hsame, hnone⟩ | htable := hext name
  · obtain ⟨origin, others, hne, hothers⟩ := hopen
    refine ⟨origin, others, others, hne, by rw [hsame, hothers], hothers, fun key => ?_⟩
    split
    · next hkey =>
      have hkey' := hlacks name key hkey
      rw [at?, hothers] at hkey'
      rw [hnone key hkey]
      exact hkey'
    · rfl
  · exact htable

/-- A change of a table that is found under a name changes nothing else. -/
theorem within_table {name : String} {path : List String} {origin : Origin} {fields fields' : Entries}
    (hne : origin ≠ .inline) (htable : es.lookup name = some (.table origin fields))
    (hchange : within path change fields = .ok fields') :
    ∃ es', es.within (name :: path) change = .ok es' ∧
      ∀ k, es'.lookup k = if name = k then some (.table origin fields') else es.lookup k := by
  rw [within]
  apply exists_alter
  rw [htable]
  cases origin with
  | inline => exact absurd rfl hne
  | header => dsimp only; rw [hchange]; rfl
  | implied => dsimp only; rw [hchange]; rfl
  | dotted => dsimp only; rw [hchange]; rfl

/-- **A value is added** under a key that is missing from an open section. -/
theorem Extends.put (hext : Extends keys given es rest) (hlacks : Lacks keys rest) {name key : String}
    (hopen : rest.IsOpen name) (hkey : key ∈ keys name) (hnone : given name key = none) (value : Value) :
    ∃ es', es.within [name] (putDotted [] key value true) = .ok es' ∧
      Extends keys (giving given name key value) es' rest := by
  obtain ⟨origin, fields, others, hne, hfields, hothers, hadds⟩ := hext.table hlacks hopen
  have hfree : ifAbsent key value (fields.lookup key) = .ok value := by
    rw [hadds, if_pos hkey, hnone]
    rfl
  obtain ⟨fields', hput, hfields'⟩ := exists_alter hfree
  have hchange : within [] (putDotted [] key value true) fields = .ok fields' := hput
  obtain ⟨es', hes', hlookup⟩ := within_table hne hfields hchange
  refine ⟨es', hes', fun n => ?_⟩
  rw [hlookup]
  by_cases hn : name = n
  · subst hn
    refine .inr ⟨origin, fields', others, hne, if_pos rfl, hothers, fun k => ?_⟩
    rw [hfields', hadds, giving]
    by_cases hk : key = k
    · subst hk
      simp [hkey]
    · simp [hk, Ne.symm hk]
  · rw [if_neg hn, giving_of_ne (Ne.symm hn)]
    exact hext n

end Extends

end Entries

/-! ### Lines that give values -/

/-- The section whose header a line is, if pairs behind it go into one. -/
def sectionOf : List String → Bool → Option String
  | [name], false => some name
  | _, _ => none

/-- The values that lines give to a key under the header of its section; `here` is the section of the header that
came last. -/
def valuesOf (name key : String) : Option String → List Line → List Value
  | _, [] => []
  | here, .pair path value :: rest =>
    if here = some name ∧ path = [key] then value :: valuesOf name key here rest
    else valuesOf name key here rest
  | _, .header path isItem :: rest => valuesOf name key (sectionOf path isItem) rest

theorem valuesOf_pair (n k name key : String) (value : Value) (lines : List Line) :
    valuesOf n k (some name) (.pair [key] value :: lines) =
      if n = name ∧ k = key then value :: valuesOf n k (some name) lines else valuesOf n k (some name) lines := by
  simp only [valuesOf, Option.some.injEq, List.cons.injEq, and_true, eq_comm]

/-- A pair behind the header of a section is for one of these keys. -/
def isFor (keys : String → List String) : Option String → List String → Bool
  | some name, [key] => key ∈ keys name
  | _, _ => false

/-- The lines that give no values to these keys. -/
def otherLines (keys : String → List String) : Option String → List Line → List Line
  | _, [] => []
  | here, .pair path value :: rest =>
    if isFor keys here path then otherLines keys here rest
    else .pair path value :: otherLines keys here rest
  | _, .header path isItem :: rest => .header path isItem :: otherLines keys (sectionOf path isItem) rest

open Entries

variable {keys : String → List String} {given : String → String → Option Value} {table : List String}
  {here : Option String} {es rest final : Entries} {lines : List Line}

theorem isFor_iff {path : List String} :
    isFor keys here path = true ↔ ∃ name key, here = some name ∧ path = [key] ∧ key ∈ keys name := by
  unfold isFor
  split
  · next name key => simp
  · next hne =>
    constructor
    · nofun
    · rintro ⟨name, key, rfl, rfl, -⟩
      exact absurd rfl (hne name key rfl)

theorem valuesOf_other {path : List String} (hfor : ¬ isFor keys here path = true) {name key : String}
    (hkey : key ∈ keys name) (value : Value) (lines : List Line) :
    valuesOf name key here (.pair path value :: lines) = valuesOf name key here lines := by
  rw [valuesOf, if_neg]
  rintro ⟨rfl, rfl⟩
  exact hfor (isFor_iff.mpr ⟨name, key, rfl, rfl, hkey⟩)

/-- Each of these keys has one value at most, given or in these lines. -/
def Once (keys : String → List String) (given : String → String → Option Value) (here : Option String)
    (lines : List Line) : Prop :=
  ∀ name, ∀ key ∈ keys name, ((given name key).toList ++ valuesOf name key here lines).length ≤ 1

/-- The values that are given and those in these lines. -/
def collected (given : String → String → Option Value) (here : Option String) (lines : List Line) :
    String → String → Option Value :=
  fun name key => (given name key).or (valuesOf name key here lines).head?

theorem collected_nil : collected given here [] = given := by
  funext name key
  rw [collected, valuesOf, List.head?_nil, Option.or_none]

section Once

variable {name key : String} {value : Value} (honce : Once keys given (some name) (.pair [key] value :: lines))
  (hkey : key ∈ keys name)
include honce hkey

/-- A key that a line has a value for has no other. -/
theorem Once.free : given name key = none ∧ valuesOf name key (some name) lines = [] := by
  have honly := honce name key hkey
  rw [valuesOf_pair, if_pos ⟨rfl, rfl⟩, List.length_append, List.length_cons] at honly
  constructor
  · rw [← Option.toList_eq_nil_iff, ← List.length_eq_zero_iff]
    omega
  · rw [← List.length_eq_zero_iff]
    omega

theorem Once.next : Once keys (giving given name key value) (some name) lines := by
  intro n k hk
  rw [giving]
  split
  · next heq =>
    obtain ⟨rfl, rfl⟩ := heq
    rw [(honce.free hk).2]
    exact Nat.le_refl 1
  · next hne =>
    have hothers := honce n k hk
    rwa [valuesOf_pair, if_neg hne] at hothers

theorem collected_pair : collected (giving given name key value) (some name) lines
    = collected given (some name) (.pair [key] value :: lines) := by
  funext n k
  rw [collected, collected, giving, valuesOf_pair]
  split
  · next heq =>
    obtain ⟨rfl, rfl⟩ := heq
    rw [(honce.free hkey).1]
    rfl
  · rfl

end Once

/-- What lacks some keys at its end lacked them all along. -/
theorem lacks_of_build (hbuild : build table es lines = .ok final) (hlacks : Lacks keys final) : Lacks keys es := by
  induction lines generalizing table es with
  | nil =>
    obtain rfl : es = final := Except.ok.inj hbuild
    exact hlacks
  | cons line lines ih =>
    cases line with
    | pair path value =>
      obtain ⟨es', hput, hbuild⟩ := exists_of_bind_eq_ok hbuild
      exact (local_within (local_putDotted _ _ _) table).lacks hput (ih hbuild)
    | header path isItem =>
      obtain ⟨es', hopen, hbuild⟩ := exists_of_bind_eq_ok hbuild
      exact (local_openTable path isItem).lacks hopen (ih hbuild)

/-- Behind the header of a section, pairs go into it and it is open. -/
def Stands (here : Option String) (table : List String) (rest : Entries) : Prop :=
  ∀ name, here = some name → table = [name] ∧ rest.IsOpen name

theorem stands_header {path : List String} {isItem : Bool} {rest' : Entries}
    (hopen : rest.openTable path isItem = .ok rest') : Stands (sectionOf path isItem) path rest' := by
  intro name hname
  unfold sectionOf at hname
  split at hname
  · cases hname
    exact ⟨rfl, isOpen_openTable hopen⟩
  · cases hname

/-- **Values are added to a document** by lines among its others, each under the header of its section and for a key
that the document has nothing under. -/
theorem build_of_otherLines (hstands : Stands here table rest) (hext : Extends keys given es rest)
    (hbuild : build table rest (otherLines keys here lines) = .ok final) (hlacks : Lacks keys final)
    (honce : Once keys given here lines) :
    ∃ es', build table es lines = .ok es' ∧ Extends keys (collected given here lines) es' final := by
  -- line by line, what was built so far extends what the other lines built by what these lines have given
  induction lines generalizing here table es rest given with
  | nil =>
    obtain rfl : rest = final := Except.ok.inj hbuild
    exact ⟨es, rfl, by rwa [collected_nil]⟩
  | cons line lines ih =>
    cases line with
    | pair path value =>
      rw [otherLines] at hbuild
      by_cases hfor : isFor keys here path
      · rw [if_pos hfor] at hbuild
        obtain ⟨name, key, rfl, rfl, hkey⟩ := isFor_iff.mp hfor
        obtain ⟨rfl, hopen⟩ := hstands name rfl
        obtain ⟨es', hes', hext'⟩ :=
          hext.put (lacks_of_build hbuild hlacks) hopen hkey (honce.free hkey).1 value
        obtain ⟨es'', hes'', hext''⟩ := ih hstands hext' hbuild (honce.next hkey)
        have hput : within [name] (putDotted [key].dropLast ([key].getLastD "") value true) es = .ok es' := hes'
        rw [collected_pair honce hkey] at hext''
        exact ⟨es'', by rw [build, hput]; exact hes'', hext''⟩
      · rw [if_neg hfor] at hbuild
        obtain ⟨rest', hput, hbuild⟩ := exists_of_bind_eq_ok hbuild
        have hchange := local_within (local_putDotted path.dropLast (path.getLastD "") value) table
        obtain ⟨es', hes', hext'⟩ := hchange.extends hext hput (lacks_of_build hbuild hlacks)
        have hstands' : Stands here table rest' := fun name hname =>
          ⟨(hstands name hname).1, hchange.isOpen hput (hstands name hname).2⟩
        have honce' : Once keys given here lines := fun name key hkey =>
          valuesOf_other hfor hkey value lines ▸ honce name key hkey
        obtain ⟨es'', hes'', hext''⟩ := ih hstands' hext' hbuild honce'
        refine ⟨es'', by rw [build, hes']; exact hes'', hext''.congr fun name key hkey => ?_⟩
        rw [collected, collected, valuesOf_other hfor hkey]
    | header path isItem =>
      obtain ⟨rest', hopen, hbuild⟩ := exists_of_bind_eq_ok hbuild
      have hlacks' := lacks_of_build hbuild hlacks
      obtain ⟨es', hes', hext'⟩ := (local_openTable path isItem).extends hext hopen hlacks'
      obtain ⟨es'', hes'', hext''⟩ := ih (stands_header hopen) hext' hbuild honce
      exact ⟨es'', by rw [build, hes']; exact hes'', hext''⟩

end EncodedFeed.Toml
