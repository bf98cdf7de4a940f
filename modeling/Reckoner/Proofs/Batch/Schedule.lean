import Reckoner.Proofs.Batch.Pool
import Reckoner.Proofs.Grammar.Raise
import Reckoner.Proofs.Log.Message

/-!
Batches under every schedule. Whatever the order in which workers take and finish the values, the
batch comes to its end, its results stand in the order of the values, each is that of its value
alone, and the summary of the failures is logged last.
-/
namespace Reckoner.Answer

theorem level_of_mem_events {bounds : Bounds} {value : Value} {event : Log.Event}
    (member : event ∈ (evaluate bounds value).events) : event.level = .debug := by
  rcases List.mem_append.mp member with noted | failed
  · obtain ⟨note, _, rfl⟩ := List.mem_map.mp noted
    rfl
  · split at failed
    · cases failed
    · rw [List.mem_singleton.mp failed]
      rfl

namespace Pool

variable {bounds : Bounds} {crew : Nat} {pool next : Pool}

/-! Runs. -/

theorem follow_append (earlier later : List Nat) :
    pool.follow bounds crew (earlier ++ later) =
      (pool.follow bounds crew earlier).bind (follow bounds crew · later) :=
  List.foldlM_append ..

theorem follow_cons (number : Nat) (later : List Nat) :
    pool.follow bounds crew (number :: later) =
      (pool.step bounds crew number).bind (follow bounds crew · later) :=
  List.foldlM_cons ..

theorem Follows.follow {values : List Value} {schedule : List Nat}
    (follows : pool.Follows bounds values) (run : pool.follow bounds crew schedule = some next) :
    next.Follows bounds values ∧
      next.remaining bounds + schedule.length = pool.remaining bounds := by
  induction schedule generalizing pool with
  | nil =>
    obtain rfl := Option.some.inj run
    exact ⟨follows, rfl⟩
  | cons number later ih =>
    rw [follow_cons] at run
    obtain ⟨middle, stepped, run⟩ := Option.bind_eq_some_iff.mp run
    obtain ⟨follows', left⟩ := ih (follows.step stepped) run
    have less := remaining_step stepped
    refine ⟨follows', ?_⟩
    rw [List.length_cons]
    omega

/-! Ends. -/

theorem mapM_result?_eq_some_iff {tasks : List Task} {results : List Result} :
    tasks.mapM Task.result? = some results ↔ tasks = results.map .done := by
  induction tasks generalizing results with
  | nil => cases results <;> simp
  | cons task rest ih =>
    rw [List.mapM_cons]
    cases task with
    | waiting value => cases results <;> simp [Task.result?]
    | working answer => cases results <;> simp [Task.result?]
    | done result =>
      cases results with
      | nil => cases rest.mapM Task.result? <;> simp [Task.result?]
      | cons first others =>
        have tail := @ih others
        cases later : rest.mapM Task.result? with
        | none => simp_all [Task.result?]
        | some images => simp_all [Task.result?]

theorem Follows.results {values : List Value} (follows : pool.Follows bounds values)
    {results : List Result} (ended : pool.results? = some results) :
    results = values.map (fun value => (evaluate bounds value).value) ∧
      ∀ (number : Nat) value, values[number]? = some value →
        pool.eventsOf number = (evaluate bounds value).events := by
  have tasks : pool.tasks = results.map .done := mapM_result?_eq_some_iff.mp ended
  have length : results.length = values.length := by
    rw [← follows.length, tasks, List.length_map]
  have each : ∀ (number : Nat) value result, values[number]? = some value →
      results[number]? = some result → result = (evaluate bounds value).value ∧
        pool.eventsOf number = (evaluate bounds value).events := by
    intro number value result given found
    have held : pool.tasks[number]? = some (.done result) := by
      rw [tasks, List.getElem?_map, found, Option.map_some]
    exact follows.task given held
  have present : ∀ (number : Nat) value, values[number]? = some value →
      ∃ result, results[number]? = some result := by
    intro number value given
    obtain ⟨inside, _⟩ := List.getElem?_eq_some_iff.mp given
    exact ⟨_, List.getElem?_eq_getElem (length ▸ inside)⟩
  constructor
  · apply List.ext_getElem?
    intro number
    rw [List.getElem?_map]
    cases given : values[number]? with
    | none =>
      rw [Option.map_none, List.getElem?_eq_none_iff, length]
      exact List.getElem?_eq_none_iff.mp given
    | some value =>
      obtain ⟨result, found⟩ := present number value given
      rw [found, Option.map_some, (each number value result given found).1]
  · intro number value given
    obtain ⟨result, found⟩ := present number value given
    exact (each number value result given found).2

theorem Follows.level {values : List Value} (follows : pool.Follows bounds values)
    {event : Log.Event} (member : event ∈ pool.log.map (·.2)) : event.level = .debug := by
  obtain ⟨entry, logged, rfl⟩ := List.mem_map.mp member
  obtain ⟨value, _, own⟩ := follows.log logged
  exact level_of_mem_events own

/-! The schedule of a single worker that takes the values in their order. -/

theorem follow_logging {number : Nat} {result : Result} {events : List Log.Event}
    (found : pool.tasks[number]? = some (.working ⟨result, events⟩)) :
    pool.follow bounds crew (List.replicate events.length number) =
      some ⟨pool.tasks.set number (.working ⟨result, []⟩),
        pool.log ++ events.map (number, ·)⟩ := by
  have inside := (List.getElem?_eq_some_iff.mp found).1
  induction events generalizing pool with
  | nil =>
    have unchanged : pool.tasks.set number (.working ⟨result, []⟩) = pool.tasks := by
      rw [← (List.getElem?_eq_some_iff.mp found).2, List.set_getElem_self]
    rw [unchanged, List.map_nil, List.append_nil]
    rfl
  | cons event later ih =>
    rw [List.length_cons, List.replicate_succ, follow_cons, step_logging found, Option.bind_some,
      ih (List.getElem?_set_self inside) (by simpa using inside)]
    simp

def turns (bounds : Bounds) (number : Nat) (value : Value) : List Nat :=
  List.replicate ((evaluate bounds value).events.length + 2) number

theorem follow_turns (bounds : Bounds) (workers : 0 < crew) {number : Nat} {value : Value}
    (idle : pool.busy = 0) (found : pool.tasks[number]? = some (.waiting value)) :
    pool.follow bounds crew (turns bounds number value) =
      some ⟨pool.tasks.set number (.done (evaluate bounds value).value),
        pool.log ++ (evaluate bounds value).events.map (number, ·)⟩ := by
  have inside := (List.getElem?_eq_some_iff.mp found).1
  have shape : turns bounds number value =
      number :: (List.replicate (evaluate bounds value).events.length number ++ [number]) := by
    rw [turns, List.replicate_succ, List.replicate_succ']
  have working : (pool.tasks.set number (.working (evaluate bounds value)))[number]? =
      some (.working ⟨(evaluate bounds value).value, (evaluate bounds value).events⟩) :=
    List.getElem?_set_self inside
  rw [shape, follow_cons, step_waiting found (idle ▸ workers), Option.bind_some, follow_append,
    follow_logging working, Option.bind_some,
    follow_cons, step_finishing (List.getElem?_set_self (by simpa using inside)), Option.bind_some]
  simp only [follow, List.foldlM_nil, List.set_set]
  rfl

theorem busy_eq_zero (results : List Result) (values : List Value) (log : List (Nat × Log.Event)) :
    busy ⟨results.map .done ++ values.map .waiting, log⟩ = 0 := by
  rw [busy, List.countP_eq_zero]
  intro task member
  rcases List.mem_append.mp member with done | waiting
  · obtain ⟨result, _, rfl⟩ := List.mem_map.mp done
    exact Bool.false_ne_true
  · obtain ⟨value, _, rfl⟩ := List.mem_map.mp waiting
    exact Bool.false_ne_true

theorem exists_follow (bounds : Bounds) (workers : 0 < crew) (results : List Result)
    (values : List Value) (log : List (Nat × Log.Event)) : ∃ schedule pool,
      follow bounds crew ⟨results.map .done ++ values.map .waiting, log⟩ schedule = some pool ∧
        pool.tasks = (results ++ values.map fun value => (evaluate bounds value).value).map .done ∧
        pool.log.map (·.2) =
          log.map (·.2) ++ values.flatMap fun value => (evaluate bounds value).events := by
  induction values generalizing results log with
  | nil => exact ⟨[], _, rfl, by simp, by simp⟩
  | cons value rest ih =>
    have found : (results.map Task.done ++ (value :: rest).map Task.waiting)[results.length]? =
        some (.waiting value) := by
      simp
    have taken := follow_turns bounds workers (busy_eq_zero results _ log) found
    have tasks : (results.map Task.done ++ (value :: rest).map Task.waiting).set results.length
        (.done (evaluate bounds value).value) =
          (results ++ [(evaluate bounds value).value]).map Task.done ++ rest.map Task.waiting := by
      simp [List.set_append_right]
    obtain ⟨schedule, pool, run, ended, logged⟩ := ih (results ++ [(evaluate bounds value).value])
      (log ++ (evaluate bounds value).events.map (results.length, ·))
    refine ⟨turns bounds results.length value ++ schedule, pool, ?_, ?_, ?_⟩
    · rw [follow_append, taken, Option.bind_some, tasks, run]
    · simpa using ended
    · simpa [List.map_append, Function.comp_def] using logged

end Pool

/-- The event of the information level with the two counts, and the message that is made of it. -/
structure Summarizes (total failures : Nat) (event : Log.Event) : Prop where
  parts : event =
    { level := ⟨20, "INFO"⟩, source := "hitung.api"
      template := "Batch of %d expressions finished with %d failures"
      arguments := [.int total, .int failures] }
  record : total < 10 ^ Numeral.maxDigits → failures ≤ total → event.record = .ok
    { level := ⟨20, "INFO"⟩, source := "hitung.api", incident := none
      message := "Batch of " ++ toString total ++ " expressions finished with " ++
        toString failures ++ " failures" }

/-- The answer to a batch: its results are those of the values alone, in their order, also for a
caller with another stack, as long as neither stack is used up. The events of the evaluations are
logged in some interleaving, each value's own in their order, and behind them comes one summary if
there are failures. -/
structure Settles (bounds : Bounds) (values : List Value) (answers : Logged (List Result)) :
    Prop where
  length : answers.value.length = values.length
  result : ∀ number : Nat,
    answers.value[number]? = values[number]?.map fun value => (evaluate bounds value).value
  alone : ∀ (bounds' : Bounds) (number : Nat) value, Evaluator.SameLimits bounds bounds' →
    values[number]? = some value → (Evaluator.evaluate bounds value none).Fits →
    (Evaluator.evaluate bounds' value none).Fits →
    answers.value[number]? = some (evaluate bounds' value).value
  events : ∃ log : List (Nat × Log.Event), (∀ event ∈ log.map (·.2), event.level = .debug) ∧
    (∀ number value, values[number]? = some value →
      (log.filter (·.1 = number)).map (·.2) = (evaluate bounds value).events) ∧
    (answers.value.countP (!·.ok) = 0 → answers.events = log.map (·.2)) ∧
    (answers.value.countP (!·.ok) ≠ 0 → ∃ summary, answers.events = log.map (·.2) ++ [summary] ∧
      Summarizes values.length (answers.value.countP (!·.ok)) summary)

theorem summarizes_batchEvent (total failures : Nat) :
    Summarizes total failures (batchEvent total failures) where
  parts := by
    rw [batchEvent, show Log.sourceNamed "api" = "hitung.api" by decide]
    rfl
  record := fun short few =>
    record_batchEvent ((Numeral.isWritable_iff total).mpr short)
      ((Numeral.isWritable_iff failures).mpr (Nat.lt_of_le_of_lt few short))

theorem Pool.Follows.settles {bounds : Bounds} {values : List Value} {pool : Pool}
    (follows : pool.Follows bounds values) {answers : Logged (List Result)}
    (closed : pool.close? = some answers) : Settles bounds values answers := by
  obtain ⟨results, ended, rfl⟩ := Option.map_eq_some_iff.mp closed
  obtain ⟨rfl, own⟩ := follows.results ended
  refine ⟨List.length_map .., fun number => List.getElem?_map, ?_, pool.log,
    fun event => follows.level, own, fun none => ?_, fun some => ?_⟩
  · intro bounds' number value same given fits fits'
    rw [List.getElem?_map, given, Option.map_some, same.answer_eq fits fits']
  · exact (congrArg _ (if_pos none)).trans (List.append_nil _)
  · refine ⟨_, congrArg _ (if_neg some), ?_⟩
    rw [List.length_map]
    exact summarizes_batchEvent ..

theorem crew_eq_zero {poolSize : Int} {asked : Option Int} (values : List Value)
    (none : workers poolSize asked < 1) : crew poolSize values asked = 0 := by
  rw [crew]
  omega

theorem crew_pos {poolSize : Int} {asked : Option Int} {values : List Value}
    (present : values ≠ []) (some : 1 ≤ workers poolSize asked) :
    0 < crew poolSize values asked := by
  have counted : 0 < values.length := List.length_pos_iff.mpr present
  rw [crew]
  omega

theorem exists_follow_batch {bounds : Bounds} {crew : Nat} (workers : 0 < crew)
    (values : List Value) : ∃ schedule pool,
      (Pool.ofValues values).follow bounds crew schedule = some pool ∧
        pool.close? = some (batch bounds values) := by
  obtain ⟨schedule, pool, run, tasks, logged⟩ :=
    Pool.exists_follow bounds workers [] values []
  refine ⟨schedule, pool, run, ?_⟩
  have ended : pool.results? = some (values.map fun value => (evaluate bounds value).value) :=
    Pool.mapM_result?_eq_some_iff.mpr tasks
  rw [Pool.close?, ended, Option.map_some, logged, batch]
  simp [List.countP_map, List.flatMap_map, Function.comp_def]

/-- An empty batch is answered by nothing and logs nothing. Else, without workers, the batch is
refused and no value is ever taken. Else every schedule of the workers ends, none of them gets stuck
before all values are done, and at its end the batch is answered by the results of the values alone,
in their order, with the summary of its failures logged last; the batch that is evaluated value by
value is the end of one such schedule. -/
theorem evaluateMany_of_schedule (bounds : Bounds) (poolSize : Int) (values : List Value)
    (asked : Option Int) :
    (values = [] → evaluateMany bounds poolSize values asked = .ok ⟨[], []⟩) ∧
    (values ≠ [] → (∀ count, asked = some count → count ≤ 0) → poolSize < 1 →
      evaluateMany bounds poolSize values asked = .error .noWorkers ∧
        ∀ number, (Pool.ofValues values).step bounds (crew poolSize values asked) number = none) ∧
    (values ≠ [] → (∃ count, asked = some count ∧ 0 < count) ∨ 1 ≤ poolSize →
      ∃ answers, evaluateMany bounds poolSize values asked = .ok answers ∧
        (∃ schedule pool, (Pool.ofValues values).follow bounds (crew poolSize values asked)
          schedule = some pool ∧ pool.close? = some answers) ∧
        ∀ schedule pool, (Pool.ofValues values).follow bounds (crew poolSize values asked)
          schedule = some pool →
            schedule.length ≤ (Pool.ofValues values).remaining bounds ∧
            (pool.close? = none → ∃ number next,
              pool.step bounds (crew poolSize values asked) number = some next) ∧
            ∀ answers, pool.close? = some answers → Settles bounds values answers) := by
  refine ⟨?_, fun present few small => ?_, fun present enough => ?_⟩
  · rintro rfl
    rfl
  · have none : workers poolSize asked < 1 := by
      unfold workers
      split
      next count =>
        rw [if_neg (Int.not_lt.mpr (few count rfl))]
        exact small
      next => exact small
    constructor
    · have fault : batchFault? poolSize values asked = some .noWorkers := by
        simp [batchFault?, present, none]
      rw [evaluateMany, fault]
    · rw [crew_eq_zero values none]
      exact fun number => Pool.step_ofValues_zero values
  · have some : 1 ≤ workers poolSize asked := by
      rcases enough with ⟨count, rfl, positive⟩ | positive
      · rw [workers, if_pos positive]
        exact positive
      · unfold workers
        split
        · split <;> omega
        · exact positive
    have workers := crew_pos present some
    have accepted : batchFault? poolSize values asked = none := by
      simp [batchFault?, Int.not_lt.mpr some]
    refine ⟨batch bounds values, ?_, exists_follow_batch workers values, ?_⟩
    · rw [evaluateMany, accepted]
    · intro schedule pool run
      obtain ⟨follows, left⟩ := (Pool.follows_ofValues bounds values).follow run
      refine ⟨by omega, fun unfinished => ?_, fun answers closed => follows.settles closed⟩
      exact Pool.exists_step workers (Option.map_eq_none_iff.mp unfinished)

def mixedValues : List Value := [.text "1", .nothing, .text "2+"]

theorem evaluateMany_of_schedule_overtaking : ∃ pool answers,
    (Pool.ofValues mixedValues).follow .standard (crew 0 mixedValues (some 2))
      [0, 2, 2, 2, 1, 1, 0, 1] = some pool ∧
    pool.close? = some answers ∧ Settles .standard mixedValues answers := by
  obtain ⟨_, _, enough⟩ := evaluateMany_of_schedule .standard 0 mixedValues (some 2)
  obtain ⟨_, _, _, every⟩ := enough (by simp [mixedValues]) (Or.inl ⟨2, rfl, by decide⟩)
  have run : ∃ pool, (Pool.ofValues mixedValues).follow .standard (crew 0 mixedValues (some 2))
      [0, 2, 2, 2, 1, 1, 0, 1] = some pool ∧ ∃ answers, pool.close? = some answers :=
    ⟨_, rfl, _, rfl⟩
  obtain ⟨pool, followed, answers, closed⟩ := run
  exact ⟨pool, answers, followed, closed, (every _ pool followed).2.2 answers closed⟩

end Reckoner.Answer
