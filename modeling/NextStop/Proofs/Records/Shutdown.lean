import Mathlib.Data.List.Induction
import Mathlib.Data.List.TakeWhile
import NextStop.Proofs.Records.Turnover
import NextStop.Records.Writer

/-!
# The writer at a shutdown

Producers add records while the writer takes them out, and at some time the stop flag is set or
the one who could set it goes away. A `Writer.Job` is the state that all of them share, a
`Writer.Act` is what one of them does in one step, and a list of acts is an interleaving of what
they do. The writer may be called at any time, which covers that a producer calls it some time
after it has appended a record; an act that is not possible does nothing.

When the writer has stopped, no record from before the shutdown waits any longer: each was handed
to the sink, once and in order, or is counted as lost, `Writer.run_stopped_accounts`. The reason is
that the flag is looked at before batches are taken and not after, so that the last of the empty
batches was taken when the shutdown had begun. And the writer does come to its end: at any time
after that, its own acts are enough, `Writer.exists_run_stopped`.
-/

namespace NextStop

namespace Writer

variable {α : Type}

/-- A writer at work. -/
structure Job (α : Type) where
  queue : WriteQueue α
  writer : Writer α
  /-- The stop flag. -/
  flag : Bool
  /-- The flag has been written since the writer last woke from that. -/
  unseen : Bool
  /-- The one who could set the flag is gone. -/
  abandoned : Bool
  /-- A call that the writer has not heard. -/
  called : Bool

/-- What is done in one step. -/
inductive Act (α : Type) where
  /-- A producer appends a record. -/
  | append (r : Record α)
  /-- A producer calls the writer. -/
  | call
  /-- The stop flag is written. -/
  | setFlag (value : Bool)
  /-- The one who could set the flag goes away. -/
  | abandon
  /-- The writer looks at the flag or takes a batch. -/
  | work
  /-- The waiting writer hears a call. -/
  | hear
  /-- The waiting writer sees that the flag was written. -/
  | see
  /-- The waiting writer sees that nobody can set the flag any longer. -/
  | leave

/-- A writer that has just started, on an empty queue. -/
def Job.start (capacity : Nat) : Job α := ⟨.empty capacity, .start, false, false, false, false⟩

/-- The job after an act. -/
def Job.perform (j : Job α) : Act α → Job α
  | .append r => { j with queue := j.queue.append r }
  | .call => { j with called := true }
  | .setFlag value => if j.abandoned then j else { j with flag := value, unseen := true }
  | .abandon => { j with abandoned := true }
  | .work =>
    let (queue, writer) := j.writer.step j.flag j.queue
    { j with queue := queue, writer := writer }
  | .hear =>
    if j.writer.phase = .waiting ∧ j.called then
      { j with called := false, writer := j.writer.wake .called }
    else j
  | .see =>
    if j.writer.phase = .waiting ∧ j.unseen then
      { j with unseen := false, writer := j.writer.wake .called }
    else j
  | .leave =>
    if j.writer.phase = .waiting ∧ !j.unseen ∧ j.abandoned then
      { j with writer := j.writer.wake .abandoned }
    else j

/-- The job after an interleaving of acts. -/
def Job.run (capacity : Nat) (acts : List (Act α)) : Job α :=
  acts.foldl Job.perform (.start capacity)

/-! ## What was appended -/

/-- The record that an act appends. -/
def Act.appended? : Act α → Option (Record α)
  | append r => some r
  | _ => none

/-- Whether an act begins the shutdown. -/
def Act.stops : Act α → Bool
  | setFlag value => value
  | abandon => true
  | _ => false

/-- The records appended before the shutdown. -/
def early (acts : List (Act α)) : List (Record α) :=
  (acts.takeWhile fun a => !a.stops).filterMap Act.appended?

/-- The records appended afterwards. -/
def late (acts : List (Act α)) : List (Record α) :=
  (acts.dropWhile fun a => !a.stops).filterMap Act.appended?

theorem early_append_late (acts : List (Act α)) :
    early acts ++ late acts = acts.filterMap Act.appended? := by
  rw [early, late, ← List.filterMap_append, List.takeWhile_append_dropWhile]

theorem late_of_running {acts : List (Act α)} (h : ∀ a ∈ acts, a.stops = false) :
    late acts = [] := by
  have hall : (acts.dropWhile fun a => !a.stops) = [] := by
    rw [List.dropWhile_eq_nil_iff]
    intro a ha
    rw [h a ha]
    rfl
  rw [late, hall]
  rfl

/-- Until the shutdown begins, all that is appended is early. -/
theorem early_of_running {acts : List (Act α)} (h : ∀ a ∈ acts, a.stops = false) :
    early acts = acts.filterMap Act.appended? := by
  have hall := early_append_late acts
  rwa [late_of_running h, List.append_nil] at hall

/-- Until the shutdown begins, what an act appends is early; the act that begins it appends
nothing. -/
theorem early_concat_of_running {acts : List (Act α)} (h : ∀ a ∈ acts, a.stops = false)
    (a : Act α) : early (acts ++ [a]) = early acts ++ a.appended?.toList ∧
      late (acts ++ [a]) = [] := by
  have hpos : ∀ b ∈ acts, (!b.stops) = true := by
    intro b hb
    rw [h b hb]
    rfl
  rw [early_of_running h, early, late, List.takeWhile_append_of_pos hpos,
    List.dropWhile_append_of_pos hpos, List.filterMap_append]
  cases a with
  | setFlag value => cases value <;> exact ⟨rfl, rfl⟩
  | _ => exact ⟨rfl, rfl⟩

/-- What is appended once the shutdown has begun is late. -/
theorem early_concat_of_stopping {acts : List (Act α)} (h : ∃ a ∈ acts, a.stops = true)
    (a : Act α) : early (acts ++ [a]) = early acts ∧
      late (acts ++ [a]) = late acts ++ a.appended?.toList := by
  obtain ⟨b, hb, hstops⟩ := h
  have hpart : acts.takeWhile (fun a => !a.stops) ≠ acts := by
    intro hall
    have hrunning := List.takeWhile_eq_self_iff.mp hall b hb
    rw [hstops] at hrunning
    contradiction
  have hlength : (acts.takeWhile fun a => !a.stops).length ≠ acts.length := fun heq =>
    hpart ((List.takeWhile_prefix _).eq_of_length heq)
  have hrest : (acts.dropWhile fun a => !a.stops).isEmpty = false := by
    rw [List.isEmpty_eq_false_iff, ne_eq, List.dropWhile_eq_nil_iff]
    intro hall
    exact hpart (List.takeWhile_eq_self_iff.mpr hall)
  rw [early, early, late, late, List.takeWhile_append, if_neg hlength, List.dropWhile_append,
    hrest, if_neg Bool.false_ne_true, List.filterMap_append]
  cases a <;> exact ⟨rfl, rfl⟩

/-- An act that appends nothing leaves both as they are. -/
theorem early_concat_of_none (acts : List (Act α)) {a : Act α} (h : a.appended? = none) :
    early (acts ++ [a]) = early acts ∧ late (acts ++ [a]) = late acts := by
  by_cases hrunning : ∀ b ∈ acts, b.stops = false
  · obtain ⟨hearly, hlate⟩ := early_concat_of_running hrunning a
    rw [hearly, hlate, h, late_of_running hrunning]
    exact ⟨List.append_nil _, rfl⟩
  · obtain ⟨hearly, hlate⟩ := early_concat_of_stopping (by simpa using hrunning) a
    rw [hearly, hlate, h]
    exact ⟨rfl, List.append_nil _⟩

/-! ## Fates -/

/-- What has become of an appended record. -/
inductive Fate where
  | written
  | waiting
  | lost
  deriving DecidableEq

/-- The records of one fate. -/
def Fate.of (f : Fate) (fates : List (Record α × Fate)) : List (Record α) :=
  (fates.filter fun x => x.2 = f).map Prod.fst

theorem exists_fates {written waiting all : List (Record α)}
    (h : (written ++ waiting).Sublist all) :
    ∃ fates : List (Record α × Fate), fates.map Prod.fst = all ∧
      Fate.written.of fates = written ∧ Fate.waiting.of fates = waiting ∧
      written.length + waiting.length + (Fate.lost.of fates).length = all.length := by
  induction all generalizing written waiting with
  | nil =>
    obtain ⟨rfl, rfl⟩ := List.append_eq_nil_iff.mp (List.sublist_nil.mp h)
    exact ⟨[], rfl, rfl, rfl, rfl⟩
  | cons r rest ih =>
    rcases List.sublist_cons_iff.mp h with hrest | ⟨others, hothers, hrest⟩
    · obtain ⟨fates, rfl, hwritten, hwaiting, hlength⟩ := ih hrest
      refine ⟨(r, .lost) :: fates, rfl, hwritten, hwaiting, ?_⟩
      rw [show Fate.lost.of ((r, .lost) :: fates) = r :: Fate.lost.of fates from rfl]
      simp only [List.length_cons]
      omega
    · rcases List.append_eq_cons_iff.mp hothers with ⟨rfl, rfl⟩ | ⟨written, rfl, rfl⟩
      · rw [← List.nil_append others] at hrest
        obtain ⟨fates, rfl, hwritten, hwaiting, hlength⟩ := ih hrest
        refine ⟨(r, .waiting) :: fates, rfl, hwritten, congrArg (r :: ·) hwaiting, ?_⟩
        rw [show Fate.lost.of ((r, .waiting) :: fates) = Fate.lost.of fates from rfl]
        simp only [List.length_cons] at hlength ⊢
        omega
      · obtain ⟨fates, rfl, hwritten, hwaiting, hlength⟩ := ih hrest
        refine ⟨(r, .written) :: fates, rfl, congrArg (r :: ·) hwritten, hwaiting, ?_⟩
        rw [show Fate.lost.of ((r, .written) :: fates) = Fate.lost.of fates from rfl]
        simp only [List.length_cons] at hlength ⊢
        omega

/-! ## Accounts -/

/-- The account of a queue and of what was taken out of it and written: of the early records `w`
were written and `b` wait, of the late ones `v` were written and `c` wait, and the rest is
lost. -/
structure Account (q : WriteQueue α) (written early late : List (Record α))
    (b c : WriteQueue.Backlog α) (w v : List (Record α)) : Prop where
  bounded : q.Bounded (b ++ c)
  written_eq : written = w ++ v
  early_order : (w ++ b.map Prod.snd).Sublist early
  late_order : (v ++ c.map Prod.snd).Sublist late
  early_first : v ≠ [] → b = []
  count : early.length + late.length = written.length + (b ++ c).length + q.dropped

section Account

variable {q : WriteQueue α} {written early late : List (Record α)}
  {b c : WriteQueue.Backlog α} {w v : List (Record α)}

theorem Account.start (capacity : Nat) :
    Account (.empty capacity : WriteQueue α) [] [] [] [] [] [] [] where
  bounded := .empty capacity
  written_eq := rfl
  early_order := .slnil
  late_order := .slnil
  early_first _ := rfl
  count := rfl

/-- An early record is appended. -/
theorem Account.append_early (h : Account q written early [] b c w v) (r : Record α) :
    ∃ b', Account (q.append r) written (early ++ [r]) [] b' [] w [] := by
  obtain ⟨rfl, hc⟩ := List.append_eq_nil_iff.mp (List.sublist_nil.mp h.late_order)
  obtain rfl := List.map_eq_nil_iff.mp hc
  have hbounded := h.bounded
  have hcount := h.count
  rw [List.append_nil] at hbounded hcount
  obtain ⟨b', hturn⟩ := hbounded.append r
  refine ⟨b', ?_, h.written_eq, ?_, .slnil, fun hne => absurd rfl hne, ?_⟩
  · rw [List.append_nil]
    exact hturn.bounded
  · have hnew : (w ++ b'.map Prod.snd).Sublist (w ++ (b.map Prod.snd ++ [r])) :=
      hturn.order.append_left w
    rw [← List.append_assoc] at hnew
    exact hnew.trans (h.early_order.append_right [r])
  · have hnew := hturn.count
    simp only [List.length_append, List.length_cons, List.length_nil] at hcount hnew ⊢
    omega

/-- A late record is appended. An early one may be lost for it, but none starts to wait. -/
theorem Account.append_late (h : Account q written early late b c w v) (r : Record α) :
    ∃ b' c', Account (q.append r) written early (late ++ [r]) b' c' w v ∧ (b = [] → b' = []) := by
  obtain ⟨d, hturn⟩ := h.bounded.append r
  have horder : (d.map Prod.snd).Sublist (b.map Prod.snd ++ (c.map Prod.snd ++ [r])) := by
    have hall := hturn.order
    rwa [List.map_append, List.append_assoc] at hall
  -- what waits afterwards is cut where the early records end
  obtain ⟨x, y, hsplit, hx, hy⟩ := List.sublist_append_iff.mp horder
  obtain ⟨b', c', rfl, rfl, rfl⟩ := List.map_eq_append_iff.mp hsplit
  have hnone : b = [] → b' = [] := by
    rintro rfl
    exact List.map_eq_nil_iff.mp (List.sublist_nil.mp hx)
  refine ⟨b', c', ⟨hturn.bounded, h.written_eq, ?_, ?_, fun hv => hnone (h.early_first hv), ?_⟩,
    hnone⟩
  · exact (hx.append_left w).trans h.early_order
  · have hnew : (v ++ c'.map Prod.snd).Sublist (v ++ (c.map Prod.snd ++ [r])) :=
      hy.append_left v
    rw [← List.append_assoc] at hnew
    exact hnew.trans (h.late_order.append_right [r])
  · have hcount := h.count
    have hnew := hturn.count
    simp only [List.length_append, List.length_cons, List.length_nil] at hcount hnew ⊢
    omega

/-- A batch is taken and written, early records first. -/
theorem Account.drain (h : Account q written early late b c w v) (max : Nat) :
    ∃ w' v', Account (q.drain max).2 (written ++ (q.drain max).1) early late (b.drop max)
      (c.drop (max - b.length)) w' v' := by
  have hturn := h.bounded.drain max
  obtain ⟨htaken, -, -, -⟩ := h.bounded.toHolds.drain max
  rw [List.drop_append] at hturn
  rw [List.take_append, List.map_append] at htaken
  refine ⟨w ++ (b.take max).map Prod.snd, v ++ (c.take (max - b.length)).map Prod.snd,
    hturn.bounded, ?_, ?_, ?_, ?_, ?_⟩
  · rw [h.written_eq, htaken]
    by_cases hv : v = []
    · simp [hv]
    · simp [h.early_first hv]
  · rw [List.append_assoc, ← List.map_append, List.take_append_drop]
    exact h.early_order
  · rw [List.append_assoc, ← List.map_append, List.take_append_drop]
    exact h.late_order
  · -- a late record leaves the queue only in a batch that has taken all early ones
    intro hne
    by_cases hv : v = []
    · have hlong : b.length ≤ max := by
        by_contra hshort
        rw [hv, Nat.sub_eq_zero_of_le (by omega)] at hne
        exact hne rfl
      exact List.drop_eq_nil_of_le hlong
    · rw [h.early_first hv, List.drop_nil]
  · have hcount := h.count
    have hnew := hturn.count
    simp only [List.length_append, List.length_nil] at hcount hnew ⊢
    omega

end Account

/-! ## Steps -/

theorem written_wake (cause : Wake) (w : Writer α) : (w.wake cause).written = w.written := by
  rcases w with ⟨phase, batches⟩
  cases phase <;> cases cause <;> rfl

/-- A waiting writer that wakes does not wait any longer. -/
theorem phase_wake {w : Writer α} (h : w.phase = .waiting) (cause : Wake) :
    (w.wake cause).phase = if cause = .called then .looking else .taking true := by
  obtain ⟨phase, batches⟩ := w
  obtain rfl : phase = .waiting := h
  cases cause <;> rfl

/-- Taking a batch: it is handed to the sink, and an empty one ends the round. -/
theorem step_taking {w : Writer α} {last : Bool} (h : w.phase = .taking last) (flag : Bool)
    (q : WriteQueue α) :
    (w.step flag q).1 = (q.drain batchSize).2 ∧
      (w.step flag q).2.written = w.written ++ (q.drain batchSize).1 ∧
      ((q.drain batchSize).1 ≠ [] ∧ (w.step flag q).2.phase = .taking last ∨
        (q.drain batchSize).1 = [] ∧
          (w.step flag q).2.phase = if last then .stopped else .waiting) := by
  rw [step, h]
  rcases hdrain : q.drain batchSize with ⟨batch, q'⟩
  cases batch with
  | nil => exact ⟨rfl, (List.append_nil _).symm, .inr ⟨rfl, rfl⟩⟩
  | cons r rest =>
    refine ⟨rfl, ?_, .inl ⟨List.cons_ne_nil r rest, rfl⟩⟩
    simp only [written, List.flatten_append, List.flatten_cons, List.flatten_nil,
      List.append_nil]

/-- A batch is empty only when nothing waits. -/
theorem drain_eq_nil_iff {q : WriteQueue α} {b : WriteQueue.Backlog α} (h : q.Bounded b) :
    (q.drain batchSize).1 = [] ↔ b = [] := by
  rw [(h.toHolds.drain batchSize).1, List.map_eq_nil_iff, List.take_eq_nil_iff]
  exact or_iff_right (by decide)

/-! ## Interleavings -/

/-- The writer stops, or has stopped, because of something. -/
def Job.Stopping (j : Job α) : Prop :=
  j.flag = true ∨ j.abandoned = true ∨ j.writer.phase = .taking true ∨ j.writer.phase = .stopped

/-- What is kept up by every act, `acts` being those so far. -/
structure Job.Kept (acts : List (Act α)) (j : Job α) : Prop where
  begun : j.Stopping → ∃ a ∈ acts, a.stops = true
  account : ∃ b c w v, Account j.queue j.writer.written (early acts) (late acts) b c w v ∧
    (j.writer.phase = .stopped → b = [])

namespace Job

variable {acts : List (Act α)} {j : Job α}

theorem Kept.start (capacity : Nat) : Kept [] (Job.start capacity : Job α) where
  begun h := by
    rcases h with h | h | h | h <;> cases h
  account := ⟨[], [], [], [], Account.start capacity, fun _ => rfl⟩

theorem Kept.begun_concat (h : j.Kept acts) (hstopping : j.Stopping) (a : Act α) :
    ∃ b ∈ acts ++ [a], b.stops = true := by
  obtain ⟨b, hb, hstops⟩ := h.begun hstopping
  exact ⟨b, List.mem_append_left _ hb, hstops⟩

/-- An act that leaves the records where they are, and after which the writer stops only if it did
before or if the act begins the shutdown. -/
theorem Kept.of_same {a : Act α} {j' : Job α} (h : j.Kept acts) (happended : a.appended? = none)
    (hqueue : j'.queue = j.queue) (hwritten : j'.writer.written = j.writer.written)
    (hstopped : j'.writer.phase = .stopped → j.writer.phase = .stopped)
    (hbegun : j'.Stopping → a.stops = true ∨ j.Stopping) : j'.Kept (acts ++ [a]) where
  begun hstopping := by
    rcases hbegun hstopping with hstops | hbefore
    · exact ⟨a, List.mem_append_right _ (List.mem_singleton_self a), hstops⟩
    · exact h.begun_concat hbefore a
  account := by
    obtain ⟨b, c, w, v, haccount, hdone⟩ := h.account
    obtain ⟨hearly, hlate⟩ := early_concat_of_none acts happended
    rw [hqueue, hwritten, hearly, hlate]
    exact ⟨b, c, w, v, haccount, fun hphase => hdone (hstopped hphase)⟩

/-- Until the shutdown begins, a record that is appended is early; afterwards it is late, and the
writer may have stopped. -/
theorem Kept.append (h : j.Kept acts) (r : Record α) :
    (j.perform (.append r)).Kept (acts ++ [.append r]) where
  begun hstopping := h.begun_concat hstopping _
  account := by
    obtain ⟨b, c, w, v, haccount, hdone⟩ := h.account
    by_cases hbegun : ∃ a ∈ acts, a.stops = true
    · obtain ⟨b', c', haccount', hnone⟩ := haccount.append_late r
      obtain ⟨hearly, hlate⟩ := early_concat_of_stopping hbegun (.append r)
      rw [hearly, hlate]
      exact ⟨b', c', w, v, haccount', fun hphase => hnone (hdone hphase)⟩
    · have hrunning : ∀ a ∈ acts, a.stops = false := by simpa using hbegun
      obtain ⟨hearly, hlate⟩ := early_concat_of_running hrunning (.append r)
      rw [late_of_running hrunning] at haccount
      obtain ⟨b', haccount'⟩ := haccount.append_early r
      rw [hearly, hlate]
      exact ⟨b', [], w, [], haccount', fun hphase =>
        absurd (h.begun (.inr (.inr (.inr hphase)))) hbegun⟩

/-- Taking a batch: the writer stops after an empty one, when nothing waits. -/
theorem Kept.take (h : j.Kept acts) {last : Bool} (hphase : j.writer.phase = .taking last) :
    (j.perform .work).Kept (acts ++ [.work]) := by
  obtain ⟨hqueue, hwritten, hnext⟩ := step_taking hphase j.flag j.queue
  have hbefore : (j.perform .work).Stopping → j.Stopping := by
    rintro (hflag | habandoned | htaking | hstopped)
    · exact .inl hflag
    · exact .inr (.inl habandoned)
    · rcases hnext with ⟨-, hsame⟩ | ⟨-, hend⟩
      · exact .inr (.inr (.inl (hphase.trans (hsame.symm.trans htaking))))
      · cases last <;> cases hend.symm.trans htaking
    · rcases hnext with ⟨-, hsame⟩ | ⟨-, hend⟩
      · cases hsame.symm.trans hstopped
      · cases last with
        | false => cases hend.symm.trans hstopped
        | true => exact .inr (.inr (.inl hphase))
  obtain ⟨b, c, w, v, haccount, -⟩ := h.account
  obtain ⟨hearly, hlate⟩ := early_concat_of_none acts (a := Act.work) rfl
  obtain ⟨w', v', haccount'⟩ := haccount.drain batchSize
  rw [← hqueue, ← hwritten, ← hearly, ← hlate] at haccount'
  refine ⟨fun hstopping => h.begun_concat (hbefore hstopping) _, _, _, w', v', haccount',
    fun hstopped => ?_⟩
  rcases hnext with ⟨-, hsame⟩ | ⟨hempty, -⟩
  · cases hsame.symm.trans hstopped
  · have hnone := (drain_eq_nil_iff haccount.bounded).mp hempty
    rw [(List.append_eq_nil_iff.mp hnone).1, List.drop_nil]

theorem Kept.work (h : j.Kept acts) : (j.perform .work).Kept (acts ++ [.work]) := by
  rcases hwriter : j.writer with ⟨phase, batches⟩
  cases phase with
  | looking =>
    have hstep : j.perform .work = { j with writer := ⟨.taking j.flag, batches⟩ } := by
      rw [Job.perform, hwriter]
      rfl
    rw [hstep]
    refine h.of_same rfl rfl (by rw [hwriter]; rfl) nofun fun hstopping => .inr ?_
    rcases hstopping with hflag | habandoned | hphase | hphase
    · exact .inl hflag
    · exact .inr (.inl habandoned)
    · injection hphase with hlast
      exact .inl hlast
    · cases hphase
  | taking last => exact h.take (by rw [hwriter])
  | waiting | stopped =>
    have hstep : j.perform .work = j := by
      rw [Job.perform, hwriter]
      simp only [step, ← hwriter]
    rw [hstep]
    exact h.of_same rfl rfl rfl id .inr

/-- Whatever wakes the writer, it stops only when nobody can set the flag any longer. -/
theorem Kept.wake (h : j.Kept acts) {a : Act α} (happended : a.appended? = none) (cause : Wake)
    (hcause : cause = .abandoned → j.abandoned = true) (unseen called : Bool) :
    Kept (acts ++ [a])
      { j with unseen := unseen, called := called, writer := j.writer.wake cause } := by
  rcases j with ⟨queue, ⟨phase, batches⟩, flag, unseen', abandoned, called'⟩
  refine h.of_same happended rfl (written_wake cause _) ?_ ?_
  · intro hphase
    cases phase <;> cases cause <;> first | exact hphase | cases hphase
  · intro hstopping
    refine .inr ?_
    rcases hstopping with hflag | habandoned | hphase | hphase
    · exact .inl hflag
    · exact .inr (.inl habandoned)
    · cases phase <;> cases cause <;>
        first | exact .inr (.inr (.inl hphase)) | exact .inr (.inl (hcause rfl)) | cases hphase
    · cases phase <;> cases cause <;> first | exact .inr (.inr (.inr hphase)) | cases hphase

theorem Kept.perform (h : j.Kept acts) (a : Act α) : (j.perform a).Kept (acts ++ [a]) := by
  cases a with
  | append r => exact h.append r
  | call => exact h.of_same rfl rfl rfl id .inr
  | setFlag value =>
    rw [Job.perform]
    split
    · exact h.of_same rfl rfl rfl id .inr
    · refine h.of_same rfl rfl rfl id fun hstopping => ?_
      rcases hstopping with hvalue | hbefore
      · exact .inl hvalue
      · exact .inr (.inr hbefore)
  | abandon => exact h.of_same rfl rfl rfl id fun _ => .inl rfl
  | work => exact h.work
  | hear =>
    rw [Job.perform]
    split
    · exact h.wake rfl .called nofun j.unseen false
    · exact h.of_same rfl rfl rfl id .inr
  | see =>
    rw [Job.perform]
    split
    · exact h.wake rfl .called nofun false j.called
    · exact h.of_same rfl rfl rfl id .inr
  | leave =>
    rw [Job.perform]
    split
    · rename_i hleave
      exact h.wake rfl .abandoned (fun _ => hleave.2.2) j.unseen j.called
    · exact h.of_same rfl rfl rfl id .inr

theorem kept_run (capacity : Nat) (acts : List (Act α)) : (Job.run capacity acts).Kept acts := by
  induction acts using List.reverseRecOn with
  | nil => exact Kept.start capacity
  | append_singleton acts a ih =>
    rw [Job.run, List.foldl_append]
    exact ih.perform a

end Job

/-- When the writer has stopped, every record that was appended before the shutdown is written or
lost, and only those appended afterwards may wait. The sink received the records that are written
once each and in order, the others that are not lost wait in order, and the queue has counted those
that are lost. -/
theorem run_stopped_accounts (capacity : Nat) (acts : List (Act α))
    (hstopped : (Job.run capacity acts).writer.phase = .stopped) :
    let j := Job.run capacity acts
    ∃ before after : List (Record α × Fate),
      before.map Prod.fst = early acts ∧ after.map Prod.fst = late acts ∧
        (∀ x ∈ before, x.2 = .written ∨ x.2 = .lost) ∧
        Fate.written.of (before ++ after) = j.writer.written ∧
        Fate.waiting.of (before ++ after) = (j.queue.drain j.queue.size).1 ∧
        (Fate.lost.of (before ++ after)).length = j.queue.dropped := by
  intro j
  obtain ⟨b, c, w, v, haccount, hnone⟩ := (Job.kept_run capacity acts).account
  obtain rfl := hnone hstopped
  obtain ⟨before, hbefore, hwritten, hwaiting, hcount⟩ := exists_fates haccount.early_order
  obtain ⟨after, hafter, hwritten', hwaiting', hcount'⟩ := exists_fates haccount.late_order
  have hof : ∀ f : Fate, f.of (before ++ after) = f.of before ++ f.of after := fun f => by
    rw [Fate.of, List.filter_append, List.map_append]
    rfl
  refine ⟨before, after, hbefore, hafter, ?_, ?_, ?_, ?_⟩
  · rintro ⟨r, fate⟩ hx
    cases fate with
    | written => exact .inl rfl
    | lost => exact .inr rfl
    | waiting =>
      have hmem : r ∈ Fate.waiting.of before :=
        List.mem_map.mpr ⟨_, List.mem_filter.mpr ⟨hx, rfl⟩, rfl⟩
      rw [hwaiting] at hmem
      contradiction
  · rw [hof, hwritten, hwritten', ← haccount.written_eq]
  · rw [hof, hwaiting, hwaiting', (haccount.bounded.toHolds.drain _).1, haccount.bounded.size_eq,
      List.take_length]
    rfl
  · have hsplit : j.writer.written = w ++ v := haccount.written_eq
    have hall : (early acts).length + (late acts).length =
        j.writer.written.length + ([] ++ c).length + j.queue.dropped := haccount.count
    rw [hsplit] at hall
    rw [hof]
    simp only [List.length_append, List.length_map, List.length_nil] at hall hcount hcount' ⊢
    omega

/-- With room for one record: the gap is refused while a sighting waits, and what is recorded after
the writer has stopped waits for ever. -/
theorem run_stopped_accounts_latecomer :
    let seen (vehicle : VehicleId) : Record Unit := .status ⟨vehicle, 0, .predictable, "seen"⟩
    let acts : List (Act Unit) :=
      [.append (seen "bus"), .append (.headway ⟨"tram", "bus", "1", "line", "harbour", 60, 0⟩),
        .call, .setFlag true, .work, .work, .work, .append (seen "tram")]
    (Job.run 1 acts).writer.phase = .stopped ∧
      ∃ before after : List (Record Unit × Fate),
        before.map Prod.fst = early acts ∧ after.map Prod.fst = late acts ∧
          (∀ x ∈ before, x.2 = .written ∨ x.2 = .lost) ∧
          Fate.written.of (before ++ after) = [seen "bus"] ∧
          Fate.waiting.of (before ++ after) = [seen "tram"] ∧
          (Fate.lost.of (before ++ after)).length = 1 := by
  intro seen acts
  have hstopped : (Job.run 1 acts).writer.phase = .stopped := by decide +kernel
  have hwritten : (Job.run 1 acts).writer.written = [seen "bus"] := by decide +kernel
  have hwaiting : ((Job.run 1 acts).queue.drain (Job.run 1 acts).queue.size).1 = [seen "tram"] := by
    decide +kernel
  have hlost : (Job.run 1 acts).queue.dropped = 1 := by decide +kernel
  obtain ⟨before, after, hbefore, hafter, hold, hof, hof', hof''⟩ :=
    run_stopped_accounts 1 acts hstopped
  exact ⟨hstopped, before, after, hbefore, hafter, hold, hof.trans hwritten, hof'.trans hwaiting,
    hof''.trans hlost⟩

/-! ## The end of the writer -/

/-- Whether an act is the writer's own. -/
def Act.isOwn : Act α → Bool
  | work | hear | see | leave => true
  | _ => false

namespace Job

/-- What the writer can bring about without anybody else. -/
def Leads (j j' : Job α) : Prop :=
  ∃ own : List (Act α), (∀ a ∈ own, a.isOwn = true) ∧ own.foldl Job.perform j = j'

theorem Leads.refl (j : Job α) : j.Leads j := ⟨[], nofun, rfl⟩

theorem Leads.step {j j' : Job α} {a : Act α} (ha : a.isOwn = true)
    (h : (j.perform a).Leads j') : j.Leads j' := by
  obtain ⟨own, hown, hrun⟩ := h
  exact ⟨a :: own, List.forall_mem_cons.mpr ⟨ha, hown⟩, hrun⟩

theorem Leads.trans {j j' j'' : Job α} (h : j.Leads j') (h' : j'.Leads j'') : j.Leads j'' := by
  obtain ⟨own, hown, rfl⟩ := h
  obtain ⟨own', hown', rfl⟩ := h'
  exact ⟨own ++ own', List.forall_mem_append.mpr ⟨hown, hown'⟩, List.foldl_append⟩

/-- A round comes to its end: every batch but the last makes the backlog shorter. -/
theorem leads_of_taking {j : Job α} {b : WriteQueue.Backlog α} (hb : j.queue.Bounded b)
    {last : Bool} (hphase : j.writer.phase = .taking last) :
    ∃ queue writer, j.Leads { j with queue := queue, writer := writer } ∧
      (∃ b', queue.Bounded b') ∧ writer.phase = if last then .stopped else .waiting := by
  induction hlength : b.length using Nat.strongRecOn generalizing j b with
  | ind n ih =>
    obtain ⟨hqueue, -, hnext⟩ := step_taking hphase j.flag j.queue
    have hdrained := (hb.drain batchSize).bounded
    rw [← hqueue] at hdrained
    have hwork : j.Leads (j.perform .work) := .step rfl (.refl _)
    rcases hnext with ⟨hsome, hsame⟩ | ⟨-, hend⟩
    · have hne : b ≠ [] := mt (drain_eq_nil_iff hb).mpr hsome
      have hshorter : (b.drop batchSize).length < n := by
        rw [List.length_drop, ← hlength]
        exact Nat.sub_lt (List.length_pos_of_ne_nil hne) (by decide)
      obtain ⟨queue, writer, hleads, hresult⟩ :=
        ih _ hshorter (j := j.perform .work) hdrained hsame rfl
      exact ⟨queue, writer, hwork.trans hleads, hresult⟩
    · exact ⟨_, _, hwork, ⟨_, hdrained⟩, hend⟩

/-- A set flag is not overlooked: if the writer has looked at it before, it will see that the flag
has changed. -/
def Noticed (j : Job α) : Prop :=
  j.flag = true → j.writer.phase = .taking false ∨ j.writer.phase = .waiting → j.unseen = true

theorem Noticed.perform {j : Job α} (h : j.Noticed) (a : Act α) : (j.perform a).Noticed := by
  cases a with
  | append r | call | abandon => exact h
  | setFlag value =>
    rw [Job.perform]
    split
    · exact h
    · exact fun _ _ => rfl
  | work =>
    rintro hflag hphase
    refine h hflag ?_
    cases hwriter : j.writer.phase with
    | looking =>
      have hstep : (j.perform .work).writer.phase = .taking j.flag := by
        rw [Job.perform, step, hwriter]
      rw [hstep, show j.flag = true from hflag] at hphase
      rcases hphase with hphase | hphase <;> cases hphase
    | taking last =>
      obtain ⟨-, -, ⟨-, hsame⟩ | ⟨-, hend⟩⟩ := step_taking hwriter j.flag j.queue
      · rcases hphase with hphase | hphase
        · exact .inl (hsame.symm.trans hphase)
        · cases hsame.symm.trans hphase
      · cases last with
        | false => exact .inl rfl
        | true => rcases hphase with hphase | hphase <;> cases hend.symm.trans hphase
    | waiting => exact .inr rfl
    | stopped =>
      have hstep : (j.perform .work).writer.phase = .stopped := by
        rw [Job.perform, step, hwriter]
        exact hwriter
      rcases hphase with hphase | hphase <;> cases hstep.symm.trans hphase
  | hear | see | leave =>
    rw [Job.perform]
    split
    · rename_i hwaits
      rintro - (hphase | hphase) <;> cases (phase_wake hwaits.1 _).symm.trans hphase
    · exact h

theorem noticed_run (capacity : Nat) (acts : List (Act α)) : (Job.run capacity acts).Noticed := by
  induction acts using List.reverseRecOn with
  | nil => exact nofun
  | append_singleton acts a ih =>
    rw [Job.run, List.foldl_append]
    exact ih.perform a

/-- From a look at the flag on, the writer makes a whole round. -/
theorem leads_of_looking {j : Job α} {b : WriteQueue.Backlog α} (hb : j.queue.Bounded b)
    (hphase : j.writer.phase = .looking) :
    ∃ queue writer, j.Leads { j with queue := queue, writer := writer } ∧
      (∃ b', queue.Bounded b') ∧ writer.phase = if j.flag then .stopped else .waiting := by
  have hstep : j.perform .work =
      { j with writer := { j.writer with phase := .taking j.flag } } := by
    simp only [Job.perform, step, hphase]
  obtain ⟨queue, writer, hleads, hresult⟩ :=
    leads_of_taking (j := j.perform .work) (by rw [hstep]; exact hb) (by rw [hstep])
  rw [hstep] at hleads
  exact ⟨queue, writer, .step rfl (by rw [hstep]; exact hleads), hresult⟩

/-- A waiting writer that has seen the flag, and that nobody can stop any longer, makes a last
round. -/
theorem leads_to_stop_of_abandoned {j : Job α} {b : WriteQueue.Backlog α} (hb : j.queue.Bounded b)
    (hphase : j.writer.phase = .waiting) (hseen : j.unseen = false) (hleft : j.abandoned = true) :
    ∃ j', j.Leads j' ∧ j'.writer.phase = .stopped := by
  have hstep : j.perform .leave = { j with writer := j.writer.wake .abandoned } :=
    if_pos ⟨hphase, by rw [hseen]; rfl, hleft⟩
  obtain ⟨queue, writer, hleads, -, hstopped⟩ := leads_of_taking (j := j.perform .leave)
    (by rw [hstep]; exact hb) (by rw [hstep]; exact phase_wake hphase .abandoned)
  exact ⟨_, .step rfl hleads, hstopped⟩

theorem leads_to_stop_of_waiting {j : Job α} {b : WriteQueue.Backlog α} (hb : j.queue.Bounded b)
    (hphase : j.writer.phase = .waiting) (hnoticed : j.flag = true → j.unseen = true)
    (hasked : j.flag = true ∨ j.abandoned = true) :
    ∃ j', j.Leads j' ∧ j'.writer.phase = .stopped := by
  cases hseen : j.unseen with
  | false =>
    rcases hasked with hflag | hleft
    · exact absurd (hnoticed hflag) (by rw [hseen]; exact Bool.false_ne_true)
    · exact leads_to_stop_of_abandoned hb hphase hseen hleft
  | true =>
    have hstep : j.perform .see =
        { j with unseen := false, writer := j.writer.wake .called } := if_pos ⟨hphase, hseen⟩
    obtain ⟨queue, writer, hleads, ⟨b', hb'⟩, hround⟩ := leads_of_looking (j := j.perform .see)
      (by rw [hstep]; exact hb) (by rw [hstep]; exact phase_wake hphase .called)
    have hsee := Leads.step rfl hleads
    rw [hstep] at hsee hround
    cases hflag : j.flag with
    | true => exact ⟨_, hsee, by rw [hround]; exact if_pos hflag⟩
    | false =>
      have hleft := hasked.resolve_left (by rw [hflag]; exact Bool.false_ne_true)
      have hwaits : writer.phase = .waiting := by
        rw [hround]
        exact if_neg (by rw [hflag]; exact Bool.false_ne_true)
      obtain ⟨j', hleads', hstopped⟩ := leads_to_stop_of_abandoned
        (j := { j with queue := queue, writer := writer, unseen := false }) hb' hwaits rfl hleft
      exact ⟨j', hsee.trans hleads', hstopped⟩

end Job

/-- Whatever has been done, once the flag is set or nobody can set it any longer, the writer comes
to its end by its own acts. -/
theorem exists_run_stopped (capacity : Nat) (acts : List (Act α))
    (hasked : (Job.run capacity acts).flag = true ∨ (Job.run capacity acts).abandoned = true) :
    ∃ own : List (Act α), (∀ a ∈ own, a.isOwn = true) ∧
      (Job.run capacity (acts ++ own)).writer.phase = .stopped := by
  suffices hleads : ∃ j', (Job.run capacity acts).Leads j' ∧ j'.writer.phase = .stopped by
    obtain ⟨j', ⟨own, hown, rfl⟩, hstopped⟩ := hleads
    refine ⟨own, hown, ?_⟩
    rw [Job.run, List.foldl_append]
    exact hstopped
  obtain ⟨b, c, w, v, haccount, -⟩ := (Job.kept_run capacity acts).account
  have hb := haccount.bounded
  have hnoticed := Job.noticed_run capacity acts
  generalize Job.run capacity acts = j at *
  cases hphase : j.writer.phase with
  | looking =>
    obtain ⟨queue, writer, hleads, ⟨b', hb'⟩, hround⟩ := Job.leads_of_looking hb hphase
    cases hflag : j.flag with
    | true => exact ⟨_, hleads, by rw [hround, hflag]; rfl⟩
    | false =>
      obtain ⟨j', hleads', hstopped⟩ := Job.leads_to_stop_of_waiting
        (j := { j with queue := queue, writer := writer }) hb' (by rw [hround, hflag]; rfl)
        (fun hset => absurd (hflag.symm.trans hset) Bool.false_ne_true) hasked
      exact ⟨j', hleads.trans hleads', hstopped⟩
  | taking last =>
    obtain ⟨queue, writer, hleads, ⟨b', hb'⟩, hround⟩ := Job.leads_of_taking hb hphase
    cases last with
    | true => exact ⟨_, hleads, hround⟩
    | false =>
      obtain ⟨j', hleads', hstopped⟩ := Job.leads_to_stop_of_waiting
        (j := { j with queue := queue, writer := writer }) hb' hround
        (fun hflag => hnoticed hflag (.inl hphase)) hasked
      exact ⟨j', hleads.trans hleads', hstopped⟩
  | waiting =>
    exact Job.leads_to_stop_of_waiting hb hphase (fun hflag => hnoticed hflag (.inr hphase)) hasked
  | stopped => exact ⟨j, .refl j, hphase⟩

end Writer

end NextStop
