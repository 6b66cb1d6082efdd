/-
Runs of one finder: whatever is done with it, in any order and any number of times, its document is
sent until one delivery completes an access and never again after that.

The finder is that of `gleaner_search::finder`. A step waits for an accessor, drops the accessor
before it starts, or looks at the finder. A session keeps the finder, what was sent and what every
step showed. The transport is any function, so each delivery may be an answer, a failure or a
silence that lasts until the caller gives up, and no delivery has to agree with an earlier one.

`step_cases` says once what a step can do: look, repeat the stored outcome, or send the document.
`Session.Consistent` ties the finder, the log and the events together, `consistent_step` and
`consistent_run` carry it along a run, and `run_of_isDone` says that nothing moves once the outcome
is stored. The main statement, `sends_until_completed`, is read off these.
-/
import HarvestSearch.Finder

set_option autoImplicit false

namespace HarvestSearch

/-! ## One access -/

namespace Execution

@[simp] theorem outcome_ofOutcome (o : Except SearchError Decoded) : (ofOutcome o).outcome = o := by
  cases o <;> rfl

@[simp] theorem isDone_ofOutcome (o : Except SearchError Decoded) : (ofOutcome o).isDone = true := by
  cases o <;> rfl

theorem ofOutcome_outcome {x : Execution} (hx : x.isDone = true) : ofOutcome x.outcome = x := by
  cases x with
  | unexecuted => exact absurd hx Bool.false_ne_true
  | executing => exact absurd hx Bool.false_ne_true
  | executed => rfl
  | failed => rfl

/-- A delivery completes the execution unless the caller gave up waiting for it. -/
theorem ofDelivery_cases (catalog : Catalog) (r : Request) (d : Delivery) :
    (d = .pending ∧ ofDelivery catalog r d = .executing) ∨
      (ofDelivery catalog r d).isDone = true := by
  cases d with
  | answered reply => exact .inr (isDone_ofOutcome _)
  | failed detail => exact .inr rfl
  | pending => exact .inl ⟨rfl, rfl⟩

/-- A failure to complete is never made up: it is what the transport reported. -/
theorem eq_failed_of_outcome_transport {catalog : Catalog} {r : Request} {d : Delivery}
    {detail : String} (hd : (ofDelivery catalog r d).isDone = true)
    (ho : (ofDelivery catalog r d).outcome = .error (.transport detail)) : d = .failed detail := by
  cases d with
  | answered reply =>
    simp only [ofDelivery, outcome_ofOutcome, Decoded.ofReply] at ho
    split at ho
    · cases ho
    · cases ho
  | failed text =>
    simp only [ofDelivery, outcome, Except.error.injEq, SearchError.transport.injEq] at ho
    rw [ho]
  | pending => exact absurd hd Bool.false_ne_true

theorem answered_of_outcome_ok {catalog : Catalog} {r : Request} {d : Delivery} {decoded : Decoded}
    (ho : (ofDelivery catalog r d).outcome = .ok decoded) :
    ∃ reply, d = .answered reply ∧ Decoded.ofReply catalog r reply = .ok decoded := by
  cases d with
  | answered reply =>
    rw [ofDelivery, outcome_ofOutcome] at ho
    exact ⟨reply, rfl, ho⟩
  | failed detail => cases ho
  | pending => cases ho

end Execution

namespace Finder

/-- The document depends on the request only, not on how far the execution has come. -/
theorem queryDocument_eq (service : SearchService) (f : Finder) :
    f.queryDocument service = (Finder.new f.request).queryDocument service := rfl

theorem call_of_isDone (service : SearchService) (sent : List Json) {f : Finder}
    (hf : f.execution.isDone = true) (accessor : Accessor) :
    f.call service sent accessor
      = ⟨f, sent, some (f.execution.outcome.bind fun d => accessor.read d)⟩ := by
  simp only [call, access, hf, if_true, Option.map_some]

/-- Without an outcome an accessor sends the document once, and what the transport delivers decides
the rest. -/
theorem call_of_not_isDone (service : SearchService) (sent : List Json) {f : Finder}
    (hf : f.execution.isDone = false) (accessor : Accessor) {x : Execution}
    (hx : x = .ofDelivery service.catalog f.request
      (service.transport sent.length (f.queryDocument service))) :
    f.call service sent accessor
      = ⟨⟨f.request, x⟩, sent ++ [f.queryDocument service],
          if x.isDone then some (x.outcome.bind fun d => accessor.read d) else none⟩ := by
  subst hx
  simp only [call, access, hf, Bool.false_eq_true, if_false]
  split <;> rfl

end Finder

/-! ## Steps and sessions -/

namespace Finder

/-- One thing that is done with a finder. -/
inductive Step where
  -- an accessor is waited for, until it answers or the caller gives it up
  | access (accessor : Accessor)
  -- an accessor is dropped before it starts
  | discard (accessor : Accessor)
  -- the other three only look
  | queryDocument
  | state
  | request
deriving DecidableEq

/-- What a step shows. -/
inductive Observation where
  | answered (answer : Except SearchError Answer)
  -- the caller dropped the accessor while the reply was outstanding
  | givenUp
  | nothing
  | document (document : Json)
  | state (word : String)
  | request (r : Request)

namespace Observation

def ofAnswer : Option (Except SearchError Answer) → Observation
  | some answer => .answered answer
  | none => .givenUp

def isGivenUp : Observation → Bool
  | .givenUp => true
  | _ => false

def isAnswered : Observation → Bool
  | .answered _ => true
  | _ => false

end Observation

/-- A finder, all that was sent, and the steps so far with what they showed. -/
structure Session where
  finder : Finder
  sent : List Json
  events : List (Step × Observation)

namespace Session

/-- A new finder, which may share its transport with others that have sent something before. -/
def start (r : Request) (earlier : List Json) : Session := ⟨.new r, earlier, []⟩

/-- The session with one more event and nothing else changed. -/
def note (s : Session) (step : Step) (shown : Observation) : Session :=
  { s with events := s.events ++ [(step, shown)] }

def step (service : SearchService) (s : Session) : Step → Session
  | .access accessor =>
    let access := s.finder.call service s.sent accessor
    ⟨access.finder, access.sent, s.events ++ [(.access accessor, .ofAnswer access.answer)]⟩
  | .discard accessor => s.note (.discard accessor) .nothing
  | .queryDocument => s.note .queryDocument (.document (s.finder.queryDocument service))
  | .state => s.note .state (.state s.finder.execution.stateWord)
  | .request => s.note .request (.request s.finder.request)

def run (service : SearchService) (s : Session) (steps : List Step) : Session :=
  steps.foldl (step service) s

/-- How many accesses were given up. -/
def givenUp (s : Session) : Nat := s.events.countP fun e => e.2.isGivenUp

/-- Some access was completed. -/
def completed (s : Session) : Bool := s.events.any fun e => e.2.isAnswered

/-! ### Small facts -/

theorem run_cons (service : SearchService) (s : Session) (x : Step) (xs : List Step) :
    s.run service (x :: xs) = (s.step service x).run service xs := rfl

@[simp] theorem givenUp_note (s : Session) (x : Step) (o : Observation) :
    (s.note x o).givenUp = s.givenUp + o.isGivenUp.toNat := by
  cases o <;> simp [givenUp, note, Observation.isGivenUp]

@[simp] theorem completed_note (s : Session) (x : Step) (o : Observation) :
    (s.note x o).completed = (s.completed || o.isAnswered) := by
  simp [completed, note]

theorem mem_events_note {s : Session} {x : Step} {o : Observation} {e : Step × Observation} :
    e ∈ (s.note x o).events ↔ e ∈ s.events ∨ e = (x, o) := by
  simp [note]

/-! ### What a step can do -/

/-- What a step that leaves the finder alone shows, if nothing else has to be known. -/
inductive Looks (service : SearchService) (f : Finder) : Step → Observation → Prop where
  | discard (accessor : Accessor) : Looks service f (.discard accessor) .nothing
  | queryDocument : Looks service f .queryDocument (.document (f.queryDocument service))
  | state : Looks service f .state (.state f.execution.stateWord)
  | request : Looks service f .request (.request f.request)

theorem Looks.not_polled {service : SearchService} {f : Finder} {x : Step} {o : Observation}
    (h : Looks service f x o) : o.isGivenUp = false ∧ o.isAnswered = false := by
  cases h <;> exact ⟨rfl, rfl⟩

/-- **What a step can do**: look at the finder, repeat the stored outcome, or, while there is none,
send the document once and keep what the delivery makes of the execution. -/
theorem step_cases (service : SearchService) (s : Session) (x : Step) :
    (∃ o, Looks service s.finder x o ∧ s.step service x = s.note x o) ∨
    (∃ accessor, x = .access accessor ∧ s.finder.execution.isDone = true ∧
      s.step service x
        = s.note x (.answered (s.finder.execution.outcome.bind fun d => accessor.read d))) ∨
    (∃ accessor y, x = .access accessor ∧ s.finder.execution.isDone = false ∧
      y = Execution.ofDelivery service.catalog s.finder.request
        (service.transport s.sent.length (s.finder.queryDocument service)) ∧
      s.step service x
        = ⟨⟨s.finder.request, y⟩, s.sent ++ [s.finder.queryDocument service],
            s.events ++ [(x, if y.isDone then .answered (y.outcome.bind fun d => accessor.read d)
              else .givenUp)]⟩) := by
  cases x with
  | access accessor =>
    -- only here does the step depend on how far the execution has come
    by_cases hf : s.finder.execution.isDone = true
    · refine .inr (.inl ⟨accessor, rfl, hf, ?_⟩)
      simp only [step, Finder.call_of_isDone service s.sent hf, Observation.ofAnswer, note]
    · have hf' : s.finder.execution.isDone = false := by simpa using hf
      refine .inr (.inr ⟨accessor, _, rfl, hf', rfl, ?_⟩)
      rw [step, Finder.call_of_not_isDone service s.sent hf' accessor rfl]
      dsimp only
      split <;> rfl
  | discard accessor => exact .inl ⟨_, .discard accessor, rfl⟩
  | queryDocument => exact .inl ⟨_, .queryDocument, rfl⟩
  | state => exact .inl ⟨_, .state, rfl⟩
  | request => exact .inl ⟨_, .request, rfl⟩

/-! ### A stored outcome -/

/-- Once the outcome is stored, no step sends anything or moves the finder, and no access is given
up. -/
theorem step_of_isDone (service : SearchService) {s : Session}
    (hs : s.finder.execution.isDone = true) (x : Step) :
    (s.step service x).finder = s.finder ∧ (s.step service x).sent = s.sent ∧
      (s.step service x).givenUp = s.givenUp := by
  rcases step_cases service s x with ⟨o, ho, heq⟩ | ⟨accessor, -, -, heq⟩ | ⟨_, _, -, hf, -⟩
  · rw [heq, givenUp_note, ho.not_polled.1]
    exact ⟨rfl, rfl, rfl⟩
  · rw [heq, givenUp_note]
    exact ⟨rfl, rfl, rfl⟩
  · -- nothing is sent, since there is an outcome
    rw [hs] at hf
    exact absurd hf Bool.noConfusion

theorem run_of_isDone (service : SearchService) (xs : List Step) :
    ∀ {s : Session}, s.finder.execution.isDone = true →
      (s.run service xs).finder = s.finder ∧ (s.run service xs).sent = s.sent ∧
        (s.run service xs).givenUp = s.givenUp := by
  -- the first step leaves the finder alone, so the outcome is still stored for the rest of the run
  induction xs with
  | nil =>
    intro s _
    exact ⟨rfl, rfl, rfl⟩
  | cons x xs ih =>
    intro s hs
    obtain ⟨hfinder, hsent, hgiven⟩ := step_of_isDone service hs x
    have hdone : (s.step service x).finder.execution.isDone = true := by rw [hfinder]; exact hs
    obtain ⟨h1, h2, h3⟩ := ih hdone
    rw [run_cons]
    exact ⟨h1.trans hfinder, h2.trans hsent, h3.trans hgiven⟩

/-! ### The invariant -/

/-- How far an execution has come, told from the accesses: none was polled, all were given up, or
one was completed. -/
def Phase (completed : Bool) (givenUp : Nat) : Execution → Prop
  | .unexecuted => completed = false ∧ givenUp = 0
  | .executing => completed = false ∧ 0 < givenUp
  | .executed _ => completed = true
  | .failed _ => completed = true

/-- What a step shows in a session whose execution has come this far. Every answer is read from the
stored outcome, and every document and request that is looked at is the finder's own. -/
inductive Shows (service : SearchService) (r : Request) (x : Execution) :
    Step → Observation → Prop where
  | answered (accessor : Accessor) : Shows service r x (.access accessor)
      (.answered (x.outcome.bind fun d => accessor.read d))
  | givenUp (accessor : Accessor) : Shows service r x (.access accessor) .givenUp
  | discard (accessor : Accessor) : Shows service r x (.discard accessor) .nothing
  | queryDocument : Shows service r x .queryDocument
      (.document ((Finder.new r).queryDocument service))
  | state (word : String) : Shows service r x .state (.state word)
  | request : Shows service r x .request (.request r)

/-- The finder, the log and the events of a session fit together. -/
structure Consistent (service : SearchService) (r : Request) (earlier : List Json) (s : Session) :
    Prop where
  request_eq : s.finder.request = r
  -- one document for every access that was given up, and one for the first that was completed
  sent_eq : s.sent = earlier ++ List.replicate (s.givenUp + s.completed.toNat)
    ((Finder.new r).queryDocument service)
  phase : Phase s.completed s.givenUp s.finder.execution
  pending : ∀ i < s.givenUp, service.transport (earlier.length + i)
    ((Finder.new r).queryDocument service) = .pending
  -- the deliveries before this one are the pending ones
  delivered : s.completed = true → s.finder.execution = .ofDelivery service.catalog r
    (service.transport (earlier.length + s.givenUp) ((Finder.new r).queryDocument service))
  shown : ∀ e ∈ s.events, Shows service r s.finder.execution e.1 e.2

variable {service : SearchService} {r : Request} {earlier : List Json} {s : Session}

theorem Phase.isDone_eq {completed : Bool} {givenUp : Nat} {x : Execution}
    (h : Phase completed givenUp x) : x.isDone = completed := by
  cases x with
  | unexecuted => exact h.1.symm
  | executing => exact h.1.symm
  | executed => exact Eq.symm h
  | failed => exact Eq.symm h

/-- An execution that is done fits every session in which some access was completed. -/
theorem Phase.of_isDone {x : Execution} (hx : x.isDone = true) (givenUp : Nat) :
    Phase true givenUp x := by
  cases x with
  | unexecuted => exact absurd hx Bool.false_ne_true
  | executing => exact absurd hx Bool.false_ne_true
  | executed => exact rfl
  | failed => exact rfl

/-- Only answers depend on the execution. -/
theorem Shows.of_not_answered {x y : Execution} {step : Step} {o : Observation}
    (h : Shows service r x step o) (ho : o.isAnswered = false) :
    Shows service r y step o := by
  cases h with
  | answered => exact absurd ho.symm Bool.false_ne_true
  | givenUp accessor => exact .givenUp accessor
  | discard accessor => exact .discard accessor
  | queryDocument => exact .queryDocument
  | state word => exact .state word
  | request => exact .request

theorem Looks.shows {f : Finder} {step : Step} {o : Observation} (h : Looks service f step o) :
    Shows service f.request f.execution step o := by
  cases h with
  | discard accessor => exact .discard accessor
  | queryDocument => exact .queryDocument
  | state => exact .state _
  | request => exact .request

theorem not_answered_of_not_completed (hs : s.completed = false) {e : Step × Observation}
    (he : e ∈ s.events) : e.2.isAnswered = false := by
  simp only [completed, List.any_eq_false] at hs
  simpa using hs e he

theorem consistent_start (service : SearchService) (r : Request) (earlier : List Json) :
    Consistent service r earlier (start r earlier) where
  request_eq := rfl
  sent_eq := by simp [start, givenUp, completed]
  phase := ⟨rfl, rfl⟩
  pending := fun i hi => absurd hi (Nat.not_lt_zero i)
  delivered := fun h => absurd h Bool.false_ne_true
  shown := fun e he => absurd he List.not_mem_nil

/-- A step that only adds an event keeps a session consistent, if the event belongs there and is no
completed access before the outcome is stored. -/
theorem Consistent.note (h : Consistent service r earlier s) {x : Step} {o : Observation}
    (hshows : Shows service r s.finder.execution x o) (hgiven : o.isGivenUp = false)
    (hanswered : o.isAnswered = true → s.completed = true) :
    Consistent service r earlier (s.note x o) := by
  have hg : (s.note x o).givenUp = s.givenUp := by rw [givenUp_note, hgiven]; rfl
  have hc : (s.note x o).completed = s.completed := by
    rw [completed_note]
    cases ho : o.isAnswered with
    | false => exact Bool.or_false _
    | true => rw [hanswered ho]; rfl
  refine ⟨h.request_eq, ?_, ?_, ?_, ?_, ?_⟩
  · rw [hg, hc]; exact h.sent_eq
  · rw [hg, hc]; exact h.phase
  · rw [hg]; exact h.pending
  · rw [hg, hc]; exact h.delivered
  · intro e he
    rcases mem_events_note.1 he with he | rfl
    · exact h.shown e he
    · exact hshows

theorem Consistent.length_sent (h : Consistent service r earlier s) (hs : s.completed = false) :
    s.sent.length = earlier.length + s.givenUp := by
  rw [h.sent_eq, hs]
  simp

/-- Without an outcome, one more document in the log stands for one more access. -/
theorem Consistent.sent_append (h : Consistent service r earlier s) (hs : s.completed = false)
    {n : Nat} (hn : n = s.givenUp + 1) :
    s.sent ++ [(Finder.new r).queryDocument service]
      = earlier ++ List.replicate n ((Finder.new r).queryDocument service) := by
  rw [h.sent_eq, hs, hn, List.append_assoc, List.replicate_succ']
  rfl

/-- Sending keeps a session consistent, whatever the transport delivers. -/
theorem Consistent.send (h : Consistent service r earlier s) (hs : s.completed = false)
    (accessor : Accessor) {y : Execution} (hy : y = Execution.ofDelivery service.catalog r
      (service.transport s.sent.length ((Finder.new r).queryDocument service))) :
    Consistent service r earlier
      ⟨⟨r, y⟩, s.sent ++ [(Finder.new r).queryDocument service],
        s.events ++ [(.access accessor,
          if y.isDone then .answered (y.outcome.bind fun d => accessor.read d) else .givenUp)]⟩ := by
  have hlen : s.sent.length = earlier.length + s.givenUp := h.length_sent hs
  -- the events so far hold no answer, so they do not mind what the outcome will be
  have hold : ∀ e ∈ s.events, Shows service r y e.1 e.2 := by
    intro e he
    exact (h.shown e he).of_not_answered (not_answered_of_not_completed hs he)
  rcases Execution.ofDelivery_cases service.catalog r
    (service.transport s.sent.length ((Finder.new r).queryDocument service)) with
    ⟨hpending, hwait⟩ | hdone
  · -- the access was given up: there is still no outcome, and one more access to count
    rw [← hy] at hwait
    subst hwait
    have hg : (s.note (.access accessor) .givenUp).givenUp = s.givenUp + 1 := givenUp_note ..
    have hc : (s.note (.access accessor) .givenUp).completed = false := by
      rw [completed_note, hs]
      rfl
    have hcount : (s.note (.access accessor) .givenUp).givenUp
        + (s.note (.access accessor) .givenUp).completed.toNat = s.givenUp + 1 := by
      rw [hg, hc]
      rfl
    refine ⟨rfl, h.sent_append hs hcount, ?_, ?_, ?_, ?_⟩
    · show Phase (s.note (.access accessor) .givenUp).completed
        (s.note (.access accessor) .givenUp).givenUp .executing
      rw [hg, hc]
      exact ⟨rfl, Nat.succ_pos _⟩
    · intro i hi
      have hi' : i < s.givenUp + 1 := hg ▸ hi
      rw [hlen] at hpending
      rcases Nat.lt_succ_iff_lt_or_eq.1 hi' with hlt | rfl
      · exact h.pending i hlt
      · exact hpending
    · intro hcompleted
      exact absurd (hc.symm.trans hcompleted) Bool.false_ne_true
    · intro e he
      rcases mem_events_note.1 he with he | rfl
      · exact hold e he
      · exact .givenUp accessor
  · -- the access was completed: its delivery is the one after all that were given up
    rw [← hy] at hdone
    rw [if_pos hdone]
    let o : Observation := .answered (y.outcome.bind fun d => accessor.read d)
    have hg : (s.note (.access accessor) o).givenUp = s.givenUp := givenUp_note ..
    have hc : (s.note (.access accessor) o).completed = true := by
      rw [completed_note]
      exact Bool.or_true _
    have hcount : (s.note (.access accessor) o).givenUp
        + (s.note (.access accessor) o).completed.toNat = s.givenUp + 1 := by
      rw [hg, hc]
      rfl
    refine ⟨rfl, h.sent_append hs hcount, ?_, ?_, ?_, ?_⟩
    · show Phase (s.note (.access accessor) o).completed (s.note (.access accessor) o).givenUp y
      rw [hc]
      exact .of_isDone hdone _
    · intro i hi
      exact h.pending i (hg ▸ hi)
    · intro _
      show y = .ofDelivery service.catalog r (service.transport
        (earlier.length + (s.note (.access accessor) o).givenUp)
        ((Finder.new r).queryDocument service))
      rw [hg, hy, hlen]
    · intro e he
      rcases mem_events_note.1 he with he | rfl
      · exact hold e he
      · exact .answered accessor

theorem consistent_step (h : Consistent service r earlier s) (x : Step) :
    Consistent service r earlier (s.step service x) := by
  have hdone : s.finder.execution.isDone = s.completed := h.phase.isDone_eq
  rcases step_cases service s x with
    ⟨o, ho, heq⟩ | ⟨accessor, rfl, hf, heq⟩ | ⟨accessor, y, rfl, hf, hy, heq⟩
  · -- a look
    rw [heq]
    have hshows := ho.shows
    rw [h.request_eq] at hshows
    refine h.note hshows ho.not_polled.1 ?_
    intro ha
    exact absurd (ho.not_polled.2.symm.trans ha) Bool.false_ne_true
  · -- the stored outcome once more
    rw [heq]
    exact h.note (.answered accessor) rfl fun _ => hdone.symm.trans hf
  · -- one more document
    rw [Finder.queryDocument_eq, h.request_eq] at hy heq
    rw [heq]
    exact h.send (hdone.symm.trans hf) accessor hy

theorem consistent_run (xs : List Step) : ∀ {s : Session}, Consistent service r earlier s →
      Consistent service r earlier (s.run service xs) := by
  induction xs with
  | nil =>
    intro s h
    exact h
  | cons x xs ih =>
    intro s h
    rw [run_cons]
    exact ih (consistent_step h x)

/-! ### Reading a session -/

theorem steps_step (service : SearchService) (s : Session) (x : Step) :
    (s.step service x).events.map (·.1) = s.events.map (·.1) ++ [x] := by
  cases x <;> simp [step, note]

theorem steps_run (service : SearchService) (xs : List Step) :
    ∀ s : Session, (s.run service xs).events.map (·.1) = s.events.map (·.1) ++ xs := by
  induction xs with
  | nil =>
    intro s
    exact (List.append_nil _).symm
  | cons x xs ih =>
    intro s
    rw [run_cons, ih, steps_step, List.append_assoc, List.singleton_append]

theorem Shows.polled_iff {x : Execution} {step : Step} {o : Observation}
    (h : Shows service r x step o) :
    (∃ accessor, step = .access accessor) ↔ o.isGivenUp = true ∨ o.isAnswered = true := by
  cases h <;> simp [Observation.isGivenUp, Observation.isAnswered]

/-- No access was polled exactly while none was given up and none was completed. -/
theorem Consistent.untouched_iff (h : Consistent service r earlier s) :
    (∀ accessor, Step.access accessor ∉ s.events.map (·.1))
      ↔ s.completed = false ∧ s.givenUp = 0 := by
  have hzero : s.givenUp = 0 ↔ ∀ e ∈ s.events, ¬e.2.isGivenUp = true := by
    rw [givenUp, List.countP_eq_zero]
  have hnone : s.completed = false ↔ ∀ e ∈ s.events, ¬e.2.isAnswered = true := by
    rw [completed, List.any_eq_false]
  rw [hzero, hnone]
  constructor
  · intro hno
    have hpolled : ∀ e ∈ s.events, ¬(e.2.isGivenUp = true ∨ e.2.isAnswered = true) := by
      intro e he hp
      obtain ⟨accessor, ha⟩ := (h.shown e he).polled_iff.2 hp
      exact hno accessor (List.mem_map.2 ⟨e, he, ha⟩)
    exact ⟨fun e he ha => hpolled e he (.inr ha), fun e he hg => hpolled e he (.inl hg)⟩
  · rintro ⟨hanswered, hgiven⟩ accessor hmem
    obtain ⟨e, he, ha⟩ := List.mem_map.1 hmem
    rcases (h.shown e he).polled_iff.1 ⟨accessor, ha⟩ with hg | ha
    · exact hgiven e he hg
    · exact hanswered e he ha

theorem Phase.unexecuted_iff {completed : Bool} {givenUp : Nat} {x : Execution}
    (h : Phase completed givenUp x) :
    x.stateWord = "Unexecuted" ↔ completed = false ∧ givenUp = 0 := by
  cases x with
  | unexecuted => exact ⟨fun _ => h, fun _ => rfl⟩
  | executing =>
    have hpos : 0 < givenUp := h.2
    simp only [Execution.stateWord]
    exact ⟨fun hw => absurd hw (by decide), fun hc => by omega⟩
  | executed d =>
    have hc : completed = true := h
    simp [Execution.stateWord, hc]
  | failed e =>
    have hc : completed = true := h
    simp [Execution.stateWord, hc]

theorem Phase.executing_iff {completed : Bool} {givenUp : Nat} {x : Execution}
    (h : Phase completed givenUp x) :
    x.stateWord = "Executing" ↔ completed = false ∧ 0 < givenUp := by
  cases x with
  | unexecuted =>
    have hzero : givenUp = 0 := h.2
    simp only [Execution.stateWord]
    exact ⟨fun hw => absurd hw (by decide), fun hc => by omega⟩
  | executing => exact ⟨fun _ => h, fun _ => rfl⟩
  | executed d =>
    have hc : completed = true := h
    simp [Execution.stateWord, hc]
  | failed e =>
    have hc : completed = true := h
    simp [Execution.stateWord, hc]

theorem Phase.final {givenUp : Nat} {x : Execution} (h : Phase true givenUp x) :
    x.stateWord = "Executed" ∨ x.stateWord = "Failed" := by
  cases x with
  | unexecuted => exact absurd h.1.symm Bool.false_ne_true
  | executing => exact absurd h.1.symm Bool.false_ne_true
  | executed => exact .inl rfl
  | failed => exact .inr rfl

theorem transport_of_bind_read {o : Except SearchError Decoded} {accessor : Accessor}
    {detail : String}
    (h : (o.bind fun d => accessor.read d) = .error (.transport detail)) :
    o = .error (.transport detail) := by
  cases o with
  | error e => simpa [Except.bind] using h
  | ok d =>
    exfalso
    cases accessor with
    | items =>
      simp only [Except.bind, Accessor.read, Decoded.items] at h
      split at h
      · cases h
      · cases h
    | count => cases h
    | facets => cases h
    | decoded => cases h

theorem Shows.access_cases {x : Execution} {accessor : Accessor} {shown : Observation}
    (h : Shows service r x (.access accessor) shown) :
    shown = .givenUp ∨ shown = .answered (x.outcome.bind fun d => accessor.read d) := by
  cases h with
  | answered => exact .inr rfl
  | givenUp => exact .inl rfl

/-- An event that answers an access holds what the accessor reads from the stored outcome. -/
theorem Shows.answer_eq {x : Execution} {accessor : Accessor} {answer : Except SearchError Answer}
    (h : Shows service r x (.access accessor) (.answered answer)) :
    answer = x.outcome.bind fun d => accessor.read d := by
  cases h
  rfl

/-- Every answer of a run is read from what the transport delivered after all accesses that were
given up. -/
theorem answer_of_run {steps : List Step} {accessor : Accessor} {answer : Except SearchError Answer}
    (he : (Step.access accessor, Observation.answered answer)
      ∈ ((start r earlier).run service steps).events) :
    answer = (Execution.ofDelivery service.catalog r (service.transport
        (earlier.length + ((start r earlier).run service steps).givenUp)
        ((Finder.new r).queryDocument service))).outcome.bind fun d => accessor.read d := by
  have hs : Consistent service r earlier ((start r earlier).run service steps) :=
    consistent_run steps (consistent_start service r earlier)
  have hc : ((start r earlier).run service steps).completed = true :=
    List.any_eq_true.2 ⟨_, he, rfl⟩
  rw [← hs.delivered hc]
  exact (hs.shown _ he).answer_eq

/-- An access after a run comes to what the delivery after all accesses that were given up makes of
the execution, and answers with what it reads from it unless that delivery does not come. This holds
before the outcome is stored, when the access itself sends the document, and after. -/
theorem call_of_run {steps : List Step} {x : Execution}
    (hx : Execution.ofDelivery service.catalog r (service.transport
        (earlier.length + ((start r earlier).run service steps).givenUp)
        ((Finder.new r).queryDocument service)) = x) (accessor : Accessor) :
    let s := (start r earlier).run service steps
    (s.finder.call service s.sent accessor).finder = ⟨r, x⟩ ∧
      (s.finder.call service s.sent accessor).answer
        = if x.isDone then some (x.outcome.bind fun d => accessor.read d) else none := by
  intro s
  have hs : Consistent service r earlier s :=
    consistent_run steps (consistent_start service r earlier)
  have hdone : s.finder.execution.isDone = s.completed := hs.phase.isDone_eq
  by_cases hc : s.completed = true
  · -- the outcome is stored, and it is the one that the delivery made
    have hexec : s.finder.execution = x := (hs.delivered hc).trans hx
    rw [Finder.call_of_isDone service s.sent (hdone.trans hc), ← hexec, if_pos (hdone.trans hc)]
    refine ⟨?_, rfl⟩
    rw [← hs.request_eq]
  · -- the access sends the document next after those that were given up
    have hc' : s.completed = false := by simpa using hc
    have hx' : x = Execution.ofDelivery service.catalog s.finder.request
        (service.transport s.sent.length (s.finder.queryDocument service)) := by
      rw [Finder.queryDocument_eq, hs.request_eq, hs.length_sent hc', hx]
    rw [Finder.call_of_not_isDone service s.sent (hdone.trans hc') accessor hx', hs.request_eq]
    exact ⟨rfl, rfl⟩

/-! ### A transport that always delivers -/

/-- Where the document always ends in the same execution, that execution is what every session with
an access in it comes to, and every access answers with what it reads from it. -/
theorem run_of_prompt {x : Execution} (hx : x.isDone = true)
    (hprompt : ∀ n, Execution.ofDelivery service.catalog r
      (service.transport n ((Finder.new r).queryDocument service)) = x)
    (earlier : List Json) {steps : List Step} (hpolled : ∃ accessor, Step.access accessor ∈ steps) :
    ((start r earlier).run service steps).finder.execution = x ∧
      ((start r earlier).run service steps).givenUp = 0 ∧
      ∀ accessor shown, (Step.access accessor, shown)
          ∈ ((start r earlier).run service steps).events →
        shown = .answered (x.outcome.bind fun d => accessor.read d) := by
  have hs : Consistent service r earlier ((start r earlier).run service steps) :=
    consistent_run steps (consistent_start service r earlier)
  have hgiven : ((start r earlier).run service steps).givenUp = 0 := by
    -- the first access that was given up would have met a delivery that does not come
    refine Nat.eq_zero_of_not_pos fun hpos => ?_
    have hdelivered := hprompt (earlier.length + 0)
    rw [hs.pending 0 hpos] at hdelivered
    rw [← hdelivered] at hx
    exact absurd hx Bool.false_ne_true
  have hcompleted : ((start r earlier).run service steps).completed = true := by
    cases hnone : ((start r earlier).run service steps).completed with
    | true => rfl
    | false =>
      obtain ⟨accessor, hmem⟩ := hpolled
      refine absurd ?_ (hs.untouched_iff.2 ⟨hnone, hgiven⟩ accessor)
      rw [steps_run]
      exact List.mem_append_right _ hmem
  have hexec : ((start r earlier).run service steps).finder.execution = x :=
    (hs.delivered hcompleted).trans (hprompt _)
  refine ⟨hexec, hgiven, ?_⟩
  intro accessor shown he
  rcases (hs.shown _ he).access_cases with hshown | hshown
  · -- the count of given up accesses is zero, so none of the events is one
    rw [givenUp, List.countP_eq_zero] at hgiven
    have hno := hgiven _ he
    rw [hshown] at hno
    exact absurd rfl hno
  · rwa [hexec] at hshown

end Session

/-! ## The main statement -/

/-- **A request is executed at most once, and its outcome stays.** For every transport and every run
of one finder, from any log of earlier documents: the log grows by the finder's own document, once
for every access that was given up and once when some access was completed, and an access is only
given up when its delivery does not come. When some access was completed there is one outcome, made
by the delivery after all that did not come; whatever follows sends nothing, moves nothing and gives
up no access, and every other access of the run answers with what it reads from that outcome. Until
then the state tells whether an access was polled. The text for an execution without outcome is only
ever an answer when the transport failed with that text. -/
theorem sends_until_completed (service : SearchService) (r : Request) (earlier : List Json)
    (steps : List Step) :
    let document := (Finder.new r).queryDocument service
    let s := (Session.start r earlier).run service steps
    s.sent = earlier ++ List.replicate (s.givenUp + s.completed.toNat) document ∧
    (∀ i < s.givenUp, service.transport (earlier.length + i) document = .pending) ∧
    (s.completed = true →
      (s.finder.execution.stateWord = "Executed" ∨ s.finder.execution.stateWord = "Failed") ∧
      ∃ outcome, Execution.ofOutcome outcome = Execution.ofDelivery service.catalog r
          (service.transport (earlier.length + s.givenUp) document) ∧
        ∀ later, let t := s.run service later
          t.finder = ⟨r, .ofOutcome outcome⟩ ∧ t.sent = s.sent ∧ t.givenUp = s.givenUp ∧
          t.events.map (·.1) = steps ++ later ∧
          ∀ accessor shown, (Step.access accessor, shown) ∈ t.events →
            shown = .givenUp ∨ shown = .answered (outcome.bind fun d => accessor.read d)) ∧
    (s.finder.execution.stateWord = "Executing" ↔ s.completed = false ∧ 0 < s.givenUp) ∧
    (s.finder.execution.stateWord = "Unexecuted" ↔ ∀ accessor, Step.access accessor ∉ steps) ∧
    (∀ accessor, (Step.access accessor, Observation.answered
        (.error (.transport "Search execution did not complete."))) ∈ s.events →
      service.transport (earlier.length + s.givenUp) document
        = .failed "Search execution did not complete.") ∧
    (∀ shown, (Step.queryDocument, Observation.document shown) ∈ s.events → shown = document) ∧
    ∀ shown, (Step.request, Observation.request shown) ∈ s.events → shown = r := by
  intro document s
  have hs : Session.Consistent service r earlier s :=
    Session.consistent_run steps (Session.consistent_start service r earlier)
  have hdone : s.finder.execution.isDone = s.completed := hs.phase.isDone_eq
  refine ⟨hs.sent_eq, hs.pending, fun hc => ⟨?_, ?_⟩, hs.phase.executing_iff, ?_, ?_, ?_, ?_⟩
  · exact Session.Phase.final (hc ▸ hs.phase)
  · have hx : s.finder.execution.isDone = true := hdone.trans hc
    refine ⟨s.finder.execution.outcome, ?_, fun later => ?_⟩
    · rw [Execution.ofOutcome_outcome hx]
      exact hs.delivered hc
    · obtain ⟨hfinder, hsent, hgiven⟩ := Session.run_of_isDone service later hx
      have hfixed : s.finder = ⟨r, .ofOutcome s.finder.execution.outcome⟩ := by
        rw [Execution.ofOutcome_outcome hx, ← hs.request_eq]
      refine ⟨hfinder.trans hfixed, hsent, hgiven, ?_, fun accessor shown he => ?_⟩
      · rw [Session.steps_run, Session.steps_run]
        rfl
      · have hshown := (Session.consistent_run later hs).shown _ he
        rw [hfinder] at hshown
        exact hshown.access_cases
  · rw [hs.phase.unexecuted_iff, ← hs.untouched_iff, Session.steps_run]
    rfl
  · intro accessor he
    have hc : s.completed = true := List.any_eq_true.2 ⟨_, he, rfl⟩
    have ho := Session.transport_of_bind_read (hs.shown _ he).answer_eq.symm
    have hx := hdone.trans hc
    rw [hs.delivered hc] at ho hx
    exact Execution.eq_failed_of_outcome_transport hx ho
  · intro shown he
    have := hs.shown _ he
    cases this
    rfl
  · intro shown he
    have := hs.shown _ he
    cases this
    rfl

end Finder

end HarvestSearch
