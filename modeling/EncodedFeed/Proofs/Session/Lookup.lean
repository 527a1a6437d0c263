import EncodedFeed.Session.Pipelines

/-!
# Looking up after a change

What `source?` and `output?` find after each elementary change of a session, and two views of a source
that most properties speak of: its queue, and whether it is closed.
-/

namespace EncodedFeed

/-! ### Tables -/

theorem Table.modify_congr {α : Type} (t : Table α) {n : Nat} {f g : α → α}
    (h : ∀ x, t.get? n = some x → f x = g x) : t.modify n f = t.modify n g := by
  cases n with
  | zero => rfl
  | succ n =>
    simp only [Table.modify, Table.mk.injEq]
    refine Array.ext (by simp) fun i h1 h2 => ?_
    simp only [Array.getElem_modify]
    split
    · next heq =>
      subst heq
      have hi : n < t.cells.size := by simpa using h1
      cases hx : t.cells[n] with
      | none => rfl
      | some x =>
        have := h x (by simp [Table.get?, Array.getElem?_eq_getElem hi, hx])
        simp [this]
    · rfl

theorem Table.get?_next {α : Type} (t : Table α) : t.get? t.next = none := by
  simp [Table.get?, Table.next]

namespace Session

variable (s : Session) (id : RoutingId)

/-! ### Sources -/

/-- Frames waiting in a source, oldest first; none if there is no such source. -/
def queue : List EncodedFrame := ((s.source? id).map Source.queue).getD []

/-- The source is there and has been closed. -/
def isClosed : Bool := (s.source? id).any Source.closed

theorem source?_modifySource (f : Source → Source) (i : RoutingId) :
    (s.modifySource id f).source? i = if id = i then (s.source? i).map f else s.source? i := by
  have hi : id.number = i.number ↔ id = i := by
    cases id; cases i; simp
  simp only [source?, modifySource, Table.get?_modify, hi]

theorem modifySource_congr {f g : Source → Source}
    (h : ∀ src, s.source? id = some src → f src = g src) : s.modifySource id f = s.modifySource id g := by
  simp only [modifySource, Table.modify_congr s.sources h]

theorem source?_addSource (r : Ref .registry) (c : SourceConfig) (i : RoutingId) :
    (s.addSource r c).2.source? i = if i = (s.addSource r c).1 then some (Source.ofConfig c r) else s.source? i := by
  have hi : i.number = s.sources.next ↔ i = ⟨s.sources.next⟩ := by
    cases i; simp
  have hadded : (s.addSource r c).2.sources = s.sources.add (Source.ofConfig c r) := by
    unfold addSource register
    dsimp only
    split <;> rfl
  rw [source?, hadded, Table.get?_add]
  simp only [hi]
  rfl

/-- A pump that has given a stamp, in its place. -/
theorem modifyPump_stamp {s : Session} {id : RoutingId} {src : Source} (h : s.source? id = some src)
    (capture now : Int64) :
    s.modifyPump id (fun _ => (src.pump.stamp capture now).2)
      = s.modifyPump id fun p => (p.stamp capture now).2 := by
  refine modifySource_congr s id fun src' h' => ?_
  rw [h, Option.some.injEq] at h'
  rw [h']

theorem queue_of_source?_eq {s t : Session} {id : RoutingId} (h : t.source? id = s.source? id) :
    t.queue id = s.queue id := by
  simp only [queue, h]

theorem isClosed_of_source?_eq {s t : Session} {id : RoutingId} (h : t.source? id = s.source? id) :
    t.isClosed id = s.isClosed id := by
  simp only [isClosed, h]

theorem queue_modifySource (f : Source → Source) (i : RoutingId) :
    (s.modifySource id f).queue i
      = if id = i then ((s.source? i).map fun src => (f src).queue).getD [] else s.queue i := by
  simp only [queue, source?_modifySource]
  split
  · rw [Option.map_map]; rfl
  · rfl

theorem isClosed_modifySource (f : Source → Source) (i : RoutingId) :
    (s.modifySource id f).isClosed i
      = if id = i then (s.source? i).any fun src => (f src).closed else s.isClosed i := by
  simp only [isClosed, source?_modifySource]
  split
  · cases s.source? i <;> rfl
  · rfl

/-- A change of a source that leaves its queue alone leaves all queues alone. -/
theorem queue_modifySource_of_eq (f : Source → Source) (h : ∀ src, (f src).queue = src.queue)
    (i : RoutingId) : (s.modifySource id f).queue i = s.queue i := by
  rw [queue_modifySource]
  split
  · simp only [h]; rfl
  · rfl

theorem isClosed_modifySource_of_eq (f : Source → Source) (h : ∀ src, (f src).closed = src.closed)
    (i : RoutingId) : (s.modifySource id f).isClosed i = s.isClosed i := by
  rw [isClosed_modifySource]
  split
  · simp only [h]; rfl
  · rfl

/-! ### Outputs -/

variable (o : Ref .output)

theorem output?_modifyOutput (f : Output → Output) (o' : Ref .output) :
    (s.modifyOutput o f).output? o' = if o = o' then (s.output? o').map f else s.output? o' := by
  have ho : o.number = o'.number ↔ o = o' := by
    cases o; cases o'; simp
  simp only [output?, modifyOutput, Table.get?_modify, ho]
  split
  · cases s.outputs.get? o'.number <;> rfl
  · rfl

theorem output?_addOutput {out : Output} (new : Output) (h : s.output? o = some out) :
    (s.addOutput new).2.output? o = some out := by
  simp only [output?, addOutput, Table.get?_add] at h ⊢
  split
  · next heq => rw [heq, Table.get?_next] at h; cases h
  · exact h

/-! ### Encoders -/

theorem encoder?_setEncoder (s : Session) (e : Ref .encoder) (x : Encoder) (e' : Ref .encoder) :
    (s.setEncoder e x).encoder? e' = if e = e' then (s.encoder? e').map fun _ => x else s.encoder? e' := by
  have he : e.number = e'.number ↔ e = e' := by
    cases e; cases e'; simp
  simp only [encoder?, setEncoder, Table.get?_modify, he]

theorem encoder?_addEncoder_self (s : Session) (x : Encoder) :
    (s.addEncoder x).2.encoder? (s.addEncoder x).1 = some x := by
  simp only [encoder?, addEncoder, Table.get?_add, if_true]

theorem encoder?_dropEncoder (s : Session) (e e' : Ref .encoder) :
    (s.dropEncoder e).encoder? e' = if e = e' then none else s.encoder? e' := by
  have he : e.number = e'.number ↔ e = e' := by
    cases e; cases e'; simp
  simp only [encoder?, dropEncoder, Table.get?_erase, he]

/-! ### Taking a frame -/

theorem take_of_queue_nil {s : Session} {id : RoutingId} (h : s.queue id = []) : s.take id = (none, s) := by
  unfold Session.take
  cases hs : s.source? id with
  | none => rfl
  | some src =>
    have hq : src.queue = [] := by simpa [queue, hs] using h
    simp [Source.take, hq]

theorem take_of_queue_cons {s : Session} {id : RoutingId} {f : EncodedFrame} {rest : List EncodedFrame}
    (h : s.queue id = f :: rest) :
    s.take id = (some f, (s.modifySource id fun src => { src with queue := rest }).note (.taken id f)) := by
  unfold Session.take
  cases hs : s.source? id with
  | none => simp [queue, hs] at h
  | some src =>
    have hq : src.queue = f :: rest := by simpa [queue, hs] using h
    have hmod : (s.modifySource id fun src => src.take.2)
        = s.modifySource id fun src => { src with queue := rest } := by
      refine modifySource_congr s id fun src' h' => ?_
      rw [hs, Option.some.injEq] at h'
      subst h'
      simp only [Source.take, hq]
    have hf : src.take.1 = some f := by simp only [Source.take, hq]
    simp only [Option.bind_some, hf, hmod]

/-- Taking the head of one queue, seen from any queue. -/
theorem queue_dequeue {s : Session} {id : RoutingId} {f : EncodedFrame} {rest : List EncodedFrame}
    (hq : s.queue id = f :: rest) (j : RoutingId) :
    s.queue j = (if id = j then [f] else [])
      ++ (s.modifySource id fun src => { src with queue := rest }).queue j := by
  rw [queue_modifySource]
  by_cases hj : id = j
  · subst hj
    cases hs : s.source? id with
    | none => simp [queue, hs] at hq
    | some src => simp [hq]
  · simp [hj]

/-- Adding to the end of one queue, seen from any queue. -/
theorem queue_enqueue {s : Session} {id : RoutingId} {src : Source} (hs : s.source? id = some src)
    (f : EncodedFrame) (j : RoutingId) :
    (s.modifySource id fun src => src.enqueue f).queue j
      = s.queue j ++ if id = j then [f] else [] := by
  rw [queue_modifySource]
  by_cases hj : id = j
  · subst hj
    simp [queue, hs, Source.enqueue]
  · simp [hj]

end Session

end EncodedFeed
