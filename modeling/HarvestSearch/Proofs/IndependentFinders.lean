/-
Finders that share one service do not interfere.

A pool holds any family of finders of one `gleaner_search::SearchService` and one log of what they
sent together. A step of the pool is one step of one of them, so a list of such steps is any
interleaving: accesses, whether they are answered or given up, and looks alike. Each finder of a
pool is followed beside the session it would have alone, with nothing sent before it. The two part
only where the transport tells a document from an equal one that is sent earlier or later, which
`SearchService.AnswersByDocument` rules out.

What the pool sent is read off the same sessions. As long as no access was given up, a finder is
done as soon as it was accessed at all, so the log grows by one document at every first access.
-/
import HarvestSearch.Proofs.FinderRuns
import HarvestSearch.Proofs.FirstOccurrences
import HarvestSearch.Sample
import Mathlib.Data.Finset.Card
import Mathlib.Data.List.Induction

set_option autoImplicit false

namespace HarvestSearch

/-- What becomes of a document does not depend on how many were sent before it. -/
def SearchService.AnswersByDocument (service : SearchService) : Prop :=
  ∀ m n document, service.transport m document = service.transport n document

namespace Finder

/-! ## One finder on two logs -/

/-- The same step of the same finder on another log: the finder moves in the same way, the same is
sent, and the step shows the same. -/
theorem Session.step_on_logs {service : SearchService} (hservice : service.AnswersByDocument)
    (f : Finder) (x : Step) :
    ∃ f' more shown, ∀ sent events, step service ⟨f, sent, events⟩ x
      = ⟨f', sent ++ more, events ++ [(x, shown)]⟩ := by
  cases x with
  | access accessor =>
    by_cases hf : f.execution.isDone = true
    · -- the stored outcome is read, and the transport is not asked
      refine ⟨f, [], .answered (f.execution.outcome.bind fun d => accessor.read d), ?_⟩
      intro sent events
      rw [step, Finder.call_of_isDone service _ hf, List.append_nil]
      rfl
    · have hf' : f.execution.isDone = false := by simpa using hf
      let y := Execution.ofDelivery service.catalog f.request
        (service.transport 0 (f.queryDocument service))
      refine ⟨⟨f.request, y⟩, [f.queryDocument service], .ofAnswer
        (if y.isDone then some (y.outcome.bind fun d => accessor.read d) else none), ?_⟩
      intro sent events
      have hy : y = Execution.ofDelivery service.catalog f.request
          (service.transport sent.length (f.queryDocument service)) := by
        rw [hservice sent.length 0]
      rw [step, Finder.call_of_not_isDone service sent hf' accessor hy]
  | discard accessor => exact ⟨f, [], .nothing, fun sent events => by rw [List.append_nil]; rfl⟩
  | queryDocument =>
    exact ⟨f, [], .document (f.queryDocument service),
      fun sent events => by rw [List.append_nil]; rfl⟩
  | state =>
    exact ⟨f, [], .state f.execution.stateWord, fun sent events => by rw [List.append_nil]; rfl⟩
  | request =>
    exact ⟨f, [], .request f.request, fun sent events => by rw [List.append_nil]; rfl⟩

theorem Session.run_append_singleton (service : SearchService) (s : Session) (steps : List Step)
    (x : Step) : s.run service (steps ++ [x]) = (s.run service steps).step service x := by
  rw [run, List.foldl_append]
  rfl

/-! ## Pools -/

/-- Finders that share a service: all that they sent together, and the steps so far, each with the
finder that took it and what it showed. -/
structure Pool (ι : Type) where
  finders : ι → Finder
  sent : List Json
  events : List (ι × Step × Observation)

namespace Pool

variable {ι : Type}

def start (requests : ι → Request) : Pool ι := ⟨fun i => .new (requests i), [], []⟩

/-- No access was given up. -/
def Completed (p : Pool ι) : Prop := ∀ e ∈ p.events, e.2.2.isGivenUp = false

/-- The finders that were accessed, as often as they were and in this order. -/
def accessed (steps : List (ι × Step)) : List ι :=
  steps.filterMap fun
    | (i, .access _) => some i
    | _ => none

theorem accessed_append (front back : List (ι × Step)) :
    accessed (front ++ back) = accessed front ++ accessed back := List.filterMap_append

variable [DecidableEq ι]

/-- A step of the pool is a step of one finder, on the log of all. -/
def step (service : SearchService) (p : Pool ι) : ι × Step → Pool ι
  | (i, x) =>
    let s := Session.step service ⟨p.finders i, p.sent, []⟩ x
    { finders := Function.update p.finders i s.finder
      sent := s.sent
      events := p.events ++ s.events.map fun e => (i, e) }

def run (service : SearchService) (p : Pool ι) (steps : List (ι × Step)) : Pool ι :=
  steps.foldl (step service) p

/-- What one finder has of the steps or events of a pool. -/
def of {α : Type} (i : ι) (xs : List (ι × α)) : List α :=
  (xs.filter fun x => x.1 = i).map (·.2)

/-- One finder of a pool by itself: its own steps, and nothing sent before. -/
def alone (service : SearchService) (requests : ι → Request) (steps : List (ι × Step)) (i : ι) :
    Session :=
  (Session.start (requests i) []).run service (of i steps)

/-! ### Small facts -/

theorem run_append_singleton (service : SearchService) (p : Pool ι) (steps : List (ι × Step))
    (x : ι × Step) : p.run service (steps ++ [x]) = (p.run service steps).step service x := by
  rw [run, List.foldl_append]
  rfl

@[simp] theorem of_append_self {α : Type} (i : ι) (xs : List (ι × α)) (a : α) :
    of i (xs ++ [(i, a)]) = of i xs ++ [a] := by
  simp [of]

theorem of_append_of_ne {α : Type} {i j : ι} (hij : j ≠ i) (xs : List (ι × α)) (a : α) :
    of i (xs ++ [(j, a)]) = of i xs := by
  simp [of, hij]

theorem mem_of {α : Type} {i : ι} {xs : List (ι × α)} {a : α} :
    a ∈ of i xs ↔ (i, a) ∈ xs := by
  simp [of]

theorem mem_accessed {steps : List (ι × Step)} {i : ι} :
    i ∈ accessed steps ↔ ∃ accessor, Step.access accessor ∈ of i steps := by
  simp only [accessed, List.mem_filterMap, mem_of]
  constructor
  · rintro ⟨⟨j, x⟩, hmem, heq⟩
    cases x with
    | access accessor =>
      cases heq
      exact ⟨accessor, hmem⟩
    | discard accessor => cases heq
    | queryDocument => cases heq
    | state => cases heq
    | request => cases heq
  · rintro ⟨accessor, hmem⟩
    exact ⟨(i, .access accessor), hmem, rfl⟩

/-! ### Each finder by itself -/

/-- **One step**: a pool moves the finder that takes the step as a session alone would, and leaves
the others as they are. -/
theorem step_eq {service : SearchService} (hservice : service.AnswersByDocument) (p : Pool ι)
    (i : ι) (x : Step) :
    ∃ f' more shown,
      p.step service (i, x)
        = ⟨Function.update p.finders i f', p.sent ++ more, p.events ++ [(i, x, shown)]⟩ ∧
      ∀ s : Session, s.finder = p.finders i →
        s.step service x = ⟨f', s.sent ++ more, s.events ++ [(x, shown)]⟩ := by
  obtain ⟨f', more, shown, hstep⟩ := Session.step_on_logs hservice (p.finders i) x
  refine ⟨f', more, shown, ?_, ?_⟩
  · rw [step, hstep]
    rfl
  · intro s hs
    rw [← hstep, ← hs]

/-- **A whole run**: every finder of a pool ends as it does alone, and its events are the ones it
has alone. -/
theorem finder_of_run {service : SearchService} (hservice : service.AnswersByDocument)
    (requests : ι → Request) (steps : List (ι × Step)) (i : ι) :
    ((start requests).run service steps).finders i = (alone service requests steps i).finder ∧
      of i ((start requests).run service steps).events
        = (alone service requests steps i).events := by
  -- a step of another finder moves neither side; a step of this one moves both alike
  induction steps using List.reverseRecOn with
  | nil => exact ⟨rfl, rfl⟩
  | append_singleton steps last ih =>
    obtain ⟨j, x⟩ := last
    obtain ⟨hfinder, hevents⟩ := ih
    obtain ⟨f', more, shown, hpool, hsession⟩ :=
      step_eq hservice ((start requests).run service steps) j x
    rw [run_append_singleton, hpool]
    by_cases hij : j = i
    · subst hij
      have hlast : alone service requests (steps ++ [(j, x)]) j
          = (alone service requests steps j).step service x := by
        rw [alone, of_append_self, Session.run_append_singleton]
        rfl
      rw [hlast, hsession _ hfinder.symm, of_append_self, hevents]
      exact ⟨Function.update_self .., rfl⟩
    · rw [alone, of_append_of_ne hij, of_append_of_ne hij]
      exact ⟨(Function.update_of_ne (Ne.symm hij) ..).trans hfinder, hevents⟩

/-! ### The log -/

theorem consistent_alone (service : SearchService) (requests : ι → Request)
    (steps : List (ι × Step)) (i : ι) :
    Session.Consistent service (requests i) [] (alone service requests steps i) :=
  Session.consistent_run _ (Session.consistent_start service (requests i) [])

/-- A pool in which no access was given up is one in which no finder gives one up alone. -/
theorem completed_iff {service : SearchService} (hservice : service.AnswersByDocument)
    (requests : ι → Request) (steps : List (ι × Step)) :
    ((start requests).run service steps).Completed
      ↔ ∀ i, (alone service requests steps i).givenUp = 0 := by
  have halone : ∀ i, (alone service requests steps i).givenUp = 0
      ↔ ∀ e ∈ of i ((start requests).run service steps).events, e.2.isGivenUp = false := by
    intro i
    rw [(finder_of_run hservice requests steps i).2, Session.givenUp, List.countP_eq_zero]
    simp only [Bool.not_eq_true]
  constructor
  · intro h i
    rw [halone]
    intro e he
    exact h (i, e) (mem_of.1 he)
  · intro h e he
    exact (halone e.1).1 (h e.1) e.2 (mem_of.2 he)

/-- A transport that always delivers lets every access complete. -/
theorem completed_of_prompt {service : SearchService} (hservice : service.AnswersByDocument)
    (requests : ι → Request) (steps : List (ι × Step))
    (hprompt : ∀ n document, service.transport n document ≠ .pending) :
    ((start requests).run service steps).Completed := by
  rw [completed_iff hservice]
  intro i
  refine Nat.eq_zero_of_not_pos fun hpos => ?_
  exact hprompt _ _ ((consistent_alone service requests steps i).pending 0 hpos)

/-- While no access is given up, a finder is done exactly when it was accessed. -/
theorem isDone_iff_accessed {service : SearchService} (hservice : service.AnswersByDocument)
    (requests : ι → Request) {steps : List (ι × Step)}
    (hcompleted : ((start requests).run service steps).Completed) (i : ι) :
    (((start requests).run service steps).finders i).execution.isDone = true
      ↔ i ∈ accessed steps := by
  have halone := consistent_alone service requests steps i
  have hgiven := (completed_iff hservice requests steps).1 hcompleted i
  have hsteps : (alone service requests steps i).events.map (·.1) = of i steps := by
    rw [alone, Session.steps_run]
    rfl
  have huntouched := halone.untouched_iff
  rw [hsteps] at huntouched
  rw [(finder_of_run hservice requests steps i).1, halone.phase.isDone_eq, mem_accessed]
  constructor
  · intro hdone
    by_contra hno
    rw [not_exists] at hno
    rw [(huntouched.1 hno).1] at hdone
    exact Bool.false_ne_true hdone
  · rintro ⟨accessor, hmem⟩
    cases hc : (alone service requests steps i).completed with
    | true => rfl
    | false => exact absurd hmem (huntouched.2 ⟨hc, hgiven⟩ accessor)

/-- **What a step sends**: nothing when it is a look or an access to a finder that is done, and else
the document of the finder. -/
theorem sent_step_cases (service : SearchService) (p : Pool ι) (i : ι) (x : Step) :
    (accessed [(i, x)] = [] ∧ (p.step service (i, x)).sent = p.sent) ∨
    (accessed [(i, x)] = [i] ∧ (p.finders i).execution.isDone = true ∧
      (p.step service (i, x)).sent = p.sent) ∨
    (accessed [(i, x)] = [i] ∧ (p.finders i).execution.isDone = false ∧
      (p.step service (i, x)).sent = p.sent ++ [(p.finders i).queryDocument service]) := by
  have hsent : (p.step service (i, x)).sent
      = (Session.step service ⟨p.finders i, p.sent, []⟩ x).sent := rfl
  rw [hsent]
  rcases Session.step_cases service ⟨p.finders i, p.sent, []⟩ x with
    ⟨shown, hlooks, heq⟩ | ⟨accessor, rfl, hf, heq⟩ | ⟨accessor, y, rfl, hf, -, heq⟩
  · rw [heq]
    exact .inl ⟨by cases hlooks <;> rfl, rfl⟩
  · rw [heq]
    exact .inr (.inl ⟨rfl, hf, rfl⟩)
  · rw [heq]
    exact .inr (.inr ⟨rfl, hf, rfl⟩)

/-- While no access is given up, the log holds the document of every finder that was accessed, once
and in the order of the first accesses. -/
theorem sent_of_run {service : SearchService} (hservice : service.AnswersByDocument)
    (requests : ι → Request) (steps : List (ι × Step))
    (hcompleted : ((start requests).run service steps).Completed) :
    ((start requests).run service steps).sent = (accessed steps).eraseDups.map
      fun i => (Finder.new (requests i)).queryDocument service := by
  induction steps using List.reverseRecOn with
  | nil => rfl
  | append_singleton steps last ih =>
    obtain ⟨i, x⟩ := last
    rw [run_append_singleton] at hcompleted ⊢
    have hearlier : ((start requests).run service steps).Completed := by
      intro e he
      exact hcompleted e (List.mem_append_left _ he)
    have hdone := isDone_iff_accessed hservice requests hearlier i
    rw [accessed_append]
    rcases sent_step_cases service ((start requests).run service steps) i x with
      ⟨hlook, hsent⟩ | ⟨haccess, hf, hsent⟩ | ⟨haccess, hf, hsent⟩
    · rw [hsent, hlook, List.append_nil]
      exact ih hearlier
    · -- the finder was accessed before
      rw [hsent, haccess, eraseDups_append_singleton, if_pos (hdone.1 hf)]
      exact ih hearlier
    · -- the first access of this finder
      have hnew : i ∉ accessed steps := by
        intro hmem
        rw [hdone.2 hmem] at hf
        exact Bool.noConfusion hf
      have hrequest : (((start requests).run service steps).finders i).request = requests i := by
        rw [(finder_of_run hservice requests steps i).1]
        exact (consistent_alone service requests steps i).request_eq
      rw [hsent, haccess, eraseDups_append_singleton, if_neg hnew, List.map_append, ih hearlier,
        Finder.queryDocument_eq, hrequest]
      rfl

end Pool

/-! ## The main statement -/

/-- **Finders do not interfere.** Let what becomes of a document depend on the document only. Then
under every interleaving of steps of any family of finders, each finder ends with the execution it
has alone, and all that its steps showed is what they show alone. If no access was given up, the
transport was called once for every finder that was accessed, with its document, in the order of the
first accesses. Another interleaving of the same steps of each finder shows each of them the same
and sends the same documents in another order. -/
theorem finders_do_not_interfere {ι : Type} [DecidableEq ι] (service : SearchService)
    (hservice : service.AnswersByDocument) (requests : ι → Request) (steps : List (ι × Step)) :
    let p := (Pool.start requests).run service steps
    (∀ i, let alone := (Session.start (requests i) []).run service (Pool.of i steps)
      p.finders i = alone.finder ∧ Pool.of i p.events = alone.events) ∧
    (p.Completed →
      p.sent = (Pool.accessed steps).eraseDups.map
        (fun i => (Finder.new (requests i)).queryDocument service) ∧
      p.sent.length = (Pool.accessed steps).toFinset.card) ∧
    ∀ steps', (∀ i, Pool.of i steps' = Pool.of i steps) →
      let q := (Pool.start requests).run service steps'
      (∀ i, q.finders i = p.finders i ∧ Pool.of i q.events = Pool.of i p.events) ∧
      (p.Completed → q.Completed ∧ q.sent.Perm p.sent) := by
  intro p
  have halone := Pool.finder_of_run hservice requests steps
  refine ⟨halone, fun hcompleted => ?_, fun steps' hsteps => ?_⟩
  · have hsent : p.sent = (Pool.accessed steps).eraseDups.map
        (fun i => (Finder.new (requests i)).queryDocument service) :=
      Pool.sent_of_run hservice requests steps hcompleted
    have hset : (Pool.accessed steps).eraseDups.toFinset = (Pool.accessed steps).toFinset := by
      ext i
      simp
    refine ⟨hsent, ?_⟩
    rw [hsent, List.length_map, ← hset, List.toFinset_card_of_nodup (nodup_eraseDups _)]
  · intro q
    have halone' := Pool.finder_of_run hservice requests steps'
    have hsteps' : ∀ i,
        Pool.alone service requests steps' i = Pool.alone service requests steps i := by
      intro i
      rw [Pool.alone, hsteps i]
      rfl
    refine ⟨fun i => ?_, fun hcompleted => ?_⟩
    · rw [(halone' i).1, (halone' i).2, (halone i).1, (halone i).2, hsteps' i]
      exact ⟨rfl, rfl⟩
    · have hcompleted' : q.Completed := by
        rw [Pool.completed_iff hservice] at hcompleted ⊢
        intro i
        rw [hsteps' i]
        exact hcompleted i
      refine ⟨hcompleted', ?_⟩
      rw [Pool.sent_of_run hservice requests steps hcompleted,
        Pool.sent_of_run hservice requests steps' hcompleted']
      -- both lists name every finder once that was accessed
      refine List.Perm.map _ ((List.perm_ext_iff_of_nodup (nodup_eraseDups _)
        (nodup_eraseDups _)).2 fun i => ?_)
      rw [List.mem_eraseDups, List.mem_eraseDups, Pool.mem_accessed, Pool.mem_accessed, hsteps i]

/-- Two finders over a transport that fails for every document with aggregations, in two orders: the
one that asks for facets fails, the other has its items and its count, and neither order lets the
one see anything of the other. -/
theorem counts_and_items_of_two :
    let service : SearchService := ⟨.usual, Sample.catalog, fun _ document =>
      match document.get? "aggregations" with
      | some _ => .failed "The engine has no memory left."
      | none => .answered (Sample.reply 7 [Sample.hit "a"])⟩
    let requests := fun aggregations => { Request.initial with aggregations := aggregations }
    let p := (Pool.start requests).run service
      [(true, .access .facets), (false, .access .items), (true, .state), (true, .access .count),
        (false, .access .count)]
    let q := (Pool.start requests).run service
      [(false, .access .items), (false, .access .count), (true, .access .facets), (true, .state),
        (true, .access .count)]
    p.sent.length = 2 ∧ q.sent.Perm p.sent ∧
    (∀ i, q.finders i = p.finders i ∧ Pool.of i q.events = Pool.of i p.events ∧
      p.finders i = ((Session.start (requests i) []).run service
        (if i then [.access .facets, .state, .access .count]
          else [.access .items, .access .count])).finder) ∧
    (p.finders true).execution = .failed (.transport "The engine has no memory left.") ∧
    (p.finders false).execution.stateWord = "Executed" := by
  intro service requests p q
  have hservice : service.AnswersByDocument := fun m n document => rfl
  have hprompt : ∀ n document, service.transport n document ≠ .pending := by
    intro n document
    dsimp only [service]
    split <;> exact Delivery.noConfusion
  obtain ⟨halone, hlog, hother⟩ := finders_do_not_interfere service hservice requests
    [(true, .access .facets), (false, .access .items), (true, .state), (true, .access .count),
      (false, .access .count)]
  have hcompleted : p.Completed := Pool.completed_of_prompt hservice requests _ hprompt
  obtain ⟨hsame, hperm⟩ := hother
    [(false, .access .items), (false, .access .count), (true, .access .facets), (true, .state),
      (true, .access .count)] (by decide)
  have hfinder : ∀ i, p.finders i = ((Session.start (requests i) []).run service
      (if i then [.access .facets, .state, .access .count]
        else [.access .items, .access .count])).finder := by
    intro i
    refine (halone i).1.trans ?_
    cases i <;> rfl
  refine ⟨(hlog hcompleted).2.trans (by decide), (hperm hcompleted).2, fun i => ?_, ?_, ?_⟩
  · exact ⟨(hsame i).1, (hsame i).2, hfinder i⟩
  · rw [hfinder]
    decide +kernel
  · rw [hfinder]
    decide +kernel

end Finder

end HarvestSearch
