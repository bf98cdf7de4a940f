import Mathlib
import Reckoner.Answer

/-!
A batch at work. Workers take values in any order, log while they evaluate them, and hand in their
results in any order. Each task logs the events of its own evaluation, ends in the result of that
evaluation, and every move of a task brings the batch nearer to its end.
-/
namespace Reckoner.Answer

/-- A value of a batch on its way to its result. A task at work has its result and the events that
are still to be logged. -/
inductive Task where
  | waiting (value : Value)
  | working (rest : Logged Result)
  | done (result : Result)

namespace Task

def isWorking : Task → Bool
  | working _ => true
  | waiting _ | done _ => false

def result? : Task → Option Result
  | done result => some result
  | waiting _ | working _ => none

def remaining (bounds : Bounds) : Task → Nat
  | waiting value => (evaluate bounds value).events.length + 2
  | working rest => rest.events.length + 1
  | done _ => 0

end Task

/-- The tasks of a batch, one for each value, and the events logged so far, each with the number of
the task that logged it. -/
structure Pool where
  tasks : List Task
  log : List (Nat × Log.Event)

/-- The workers that a batch gets: no more than there are values. -/
def crew (poolSize : Int) (values : List Value) (asked : Option Int) : Nat :=
  (min (workers poolSize asked) values.length).toNat

namespace Pool

def ofValues (values : List Value) : Pool := ⟨values.map .waiting, []⟩

def busy (pool : Pool) : Nat := pool.tasks.countP Task.isWorking

def eventsOf (pool : Pool) (number : Nat) : List Log.Event :=
  (pool.log.filter (·.1 = number)).map (·.2)

/-- The next move of a task. A waiting one is taken if a worker is free; a finished one makes no
move. -/
def step (bounds : Bounds) (crew : Nat) (pool : Pool) (number : Nat) : Option Pool :=
  match pool.tasks[number]? with
  | some (.waiting value) =>
    if pool.busy < crew then
      some ⟨pool.tasks.set number (.working (evaluate bounds value)), pool.log⟩
    else none
  | some (.working ⟨result, []⟩) => some ⟨pool.tasks.set number (.done result), pool.log⟩
  | some (.working ⟨result, event :: later⟩) =>
    some ⟨pool.tasks.set number (.working ⟨result, later⟩), pool.log ++ [(number, event)]⟩
  | some (.done _) | none => none

/-- The moves of a schedule, which names the task to move at each time. -/
def follow (bounds : Bounds) (crew : Nat) (pool : Pool) (schedule : List Nat) : Option Pool :=
  schedule.foldlM (step bounds crew) pool

def remaining (bounds : Bounds) (pool : Pool) : Nat :=
  (pool.tasks.map (Task.remaining bounds)).sum

def results? (pool : Pool) : Option (List Result) := pool.tasks.mapM Task.result?

/-- What a batch answers once all tasks are done: the results and all events, with the summary
behind them if there are failures. -/
def close? (pool : Pool) : Option (Logged (List Result)) :=
  pool.results?.map fun results =>
    let failures := results.countP (!·.ok)
    ⟨results, pool.log.map (·.2) ++
      if failures = 0 then [] else [batchEvent results.length failures]⟩

end Pool

/-! Single moves. -/

/-- What a move of a task can be: the task as it was and as it becomes, and what it logs. -/
inductive Task.Moves (bounds : Bounds) : Task → Task → List Log.Event → Prop
  | take (value : Value) : Moves bounds (.waiting value) (.working (evaluate bounds value)) []
  | log (result : Result) (event : Log.Event) (later : List Log.Event) :
    Moves bounds (.working ⟨result, event :: later⟩) (.working ⟨result, later⟩) [event]
  | finish (result : Result) : Moves bounds (.working ⟨result, []⟩) (.done result) []

/-- A task on a value has logged some events: the first ones of the answer to the value, of which
it still has the others. At its end it has logged all of them and holds the result. -/
def Task.Follows (answer : Logged Result) (value : Value) (logged : List Log.Event) : Task → Prop
  | waiting value' => value' = value ∧ logged = []
  | working rest => rest.value = answer.value ∧ logged ++ rest.events = answer.events
  | done result => result = answer.value ∧ logged = answer.events

theorem Task.Follows.moves {bounds : Bounds} {value : Value} {logged events : List Log.Event}
    {task task' : Task} (follows : task.Follows (evaluate bounds value) value logged)
    (moves : task.Moves bounds task' events) :
    task'.Follows (evaluate bounds value) value (logged ++ events) := by
  cases moves with
  | take value' =>
    obtain ⟨rfl, rfl⟩ := follows
    exact ⟨rfl, rfl⟩
  | log result event later =>
    refine ⟨follows.1, ?_⟩
    rw [← follows.2, List.append_assoc]
    rfl
  | finish result =>
    refine ⟨follows.1, ?_⟩
    rw [List.append_nil, ← follows.2]
    exact (List.append_nil logged).symm

theorem Task.Follows.mem_of_moves {bounds : Bounds} {value : Value}
    {logged events : List Log.Event} {task task' : Task}
    (follows : task.Follows (evaluate bounds value) value logged)
    (moves : task.Moves bounds task' events) {event : Log.Event} (added : event ∈ events) :
    event ∈ (evaluate bounds value).events := by
  cases moves with
  | take value' => cases added
  | finish result => cases added
  | log result event' later =>
    obtain rfl := List.mem_singleton.mp added
    rw [← follows.2]
    exact List.mem_append_right _ List.mem_cons_self

namespace Pool

variable {bounds : Bounds} {crew : Nat} {pool next : Pool} {number : Nat}

theorem step_cases (stepped : pool.step bounds crew number = some next) :
    ∃ task task' events, pool.tasks[number]? = some task ∧ task.Moves bounds task' events ∧
      next = ⟨pool.tasks.set number task', pool.log ++ events.map (number, ·)⟩ := by
  unfold step at stepped
  split at stepped
  next value found =>
    split at stepped
    · refine ⟨_, _, _, found, .take value, ?_⟩
      rw [← Option.some.inj stepped, List.map_nil, List.append_nil]
    · cases stepped
  next result found =>
    refine ⟨_, _, _, found, .finish result, ?_⟩
    rw [← Option.some.inj stepped, List.map_nil, List.append_nil]
  next result event later found =>
    exact ⟨_, _, _, found, .log result event later, (Option.some.inj stepped).symm⟩
  next => cases stepped
  next => cases stepped

theorem step_waiting {value : Value} (found : pool.tasks[number]? = some (.waiting value))
    (free : pool.busy < crew) : pool.step bounds crew number =
      some ⟨pool.tasks.set number (.working (evaluate bounds value)), pool.log⟩ := by
  simp only [step, found, if_pos free]

theorem step_logging {result : Result} {event : Log.Event} {later : List Log.Event}
    (found : pool.tasks[number]? = some (.working ⟨result, event :: later⟩)) :
    pool.step bounds crew number = some
      ⟨pool.tasks.set number (.working ⟨result, later⟩), pool.log ++ [(number, event)]⟩ := by
  simp only [step, found]

theorem step_finishing {result : Result}
    (found : pool.tasks[number]? = some (.working ⟨result, []⟩)) :
    pool.step bounds crew number = some ⟨pool.tasks.set number (.done result), pool.log⟩ := by
  simp only [step, found]

theorem exists_step_working {rest : Logged Result}
    (found : pool.tasks[number]? = some (.working rest)) :
    ∃ next, pool.step bounds crew number = some next := by
  obtain ⟨result, events⟩ := rest
  cases events with
  | nil => exact ⟨_, step_finishing found⟩
  | cons event later => exact ⟨_, step_logging found⟩

theorem step_ofValues_zero (values : List Value) :
    (ofValues values).step bounds 0 number = none := by
  have waits : ∀ task, (ofValues values).tasks[number]? = some task → ∃ value,
      task = .waiting value := by
    intro task found
    rw [ofValues, List.getElem?_map] at found
    obtain ⟨value, _, same⟩ := Option.map_eq_some_iff.mp found
    exact ⟨value, same.symm⟩
  unfold step
  cases found : (ofValues values).tasks[number]? with
  | none => rfl
  | some task =>
    obtain ⟨value, rfl⟩ := waits task found
    exact if_neg (Nat.not_lt_zero _)

/-! What is left to do. -/

theorem sum_map_set {α : Type} (weight : α → Nat) {items : List α} {place : Nat} {old : α}
    (found : items[place]? = some old) (new : α) :
    ((items.set place new).map weight).sum + weight old = (items.map weight).sum + weight new := by
  induction items generalizing place with
  | nil => simp at found
  | cons first rest ih =>
    cases place with
    | zero =>
      obtain rfl : first = old := Option.some.inj found
      simp only [List.set_cons_zero, List.map_cons, List.sum_cons]
      omega
    | succ place =>
      have later := ih (show rest[place]? = some old from found)
      simp only [List.set_cons_succ, List.map_cons, List.sum_cons]
      omega

theorem remaining_of_moves {task task' : Task} {events : List Log.Event}
    (moves : task.Moves bounds task' events) :
    task'.remaining bounds + 1 = task.remaining bounds := by
  cases moves <;> rfl

theorem remaining_step (stepped : pool.step bounds crew number = some next) :
    next.remaining bounds + 1 = pool.remaining bounds := by
  obtain ⟨task, task', events, found, moves, rfl⟩ := step_cases stepped
  have sums := sum_map_set (Task.remaining bounds) found task'
  have less := remaining_of_moves moves
  simp only [remaining]
  omega

theorem exists_mem_of_mapM_eq_none {α β : Type} {f : α → Option β} {items : List α}
    (missing : items.mapM f = none) : ∃ item ∈ items, f item = none := by
  induction items with
  | nil => cases missing
  | cons first rest ih =>
    cases here : f first with
    | none => exact ⟨first, List.mem_cons_self, here⟩
    | some image =>
      cases later : rest.mapM f with
      | none =>
        obtain ⟨item, member, none⟩ := ih later
        exact ⟨item, List.mem_cons_of_mem _ member, none⟩
      | some images => simp [List.mapM_cons, here, later] at missing

theorem exists_step (workers : 0 < crew) (unfinished : pool.results? = none) :
    ∃ number next, pool.step bounds crew number = some next := by
  obtain ⟨task, member, open'⟩ := exists_mem_of_mapM_eq_none unfinished
  obtain ⟨number, found⟩ := List.mem_iff_getElem?.mp member
  cases task with
  | done result => cases open'
  | working rest => exact ⟨number, exists_step_working found⟩
  | waiting value =>
    by_cases free : pool.busy < crew
    · exact ⟨number, _, step_waiting found free⟩
    · -- All workers are busy, so there is a task at work.
      have busy : 0 < pool.busy := by omega
      obtain ⟨other, member', working⟩ := List.countP_pos_iff.mp busy
      obtain ⟨number', found'⟩ := List.mem_iff_getElem?.mp member'
      cases other with
      | working rest => exact ⟨number', exists_step_working found'⟩
      | waiting value => cases working
      | done result => cases working

/-! What the tasks have logged and hold. -/

/-- A pool follows its values if each task has logged the first events of the evaluation of its
value and still has the others, and a task that is done holds the result of that evaluation. -/
structure Follows (bounds : Bounds) (values : List Value) (pool : Pool) : Prop where
  length : pool.tasks.length = values.length
  task : ∀ {number : Nat} {value : Value} {task : Task},
    values[number]? = some value → pool.tasks[number]? = some task →
    task.Follows (evaluate bounds value) value (pool.eventsOf number)
  log : ∀ {number : Nat} {event : Log.Event}, (number, event) ∈ pool.log →
    ∃ value ∈ values, event ∈ (evaluate bounds value).events

theorem follows_ofValues (bounds : Bounds) (values : List Value) :
    (ofValues values).Follows bounds values where
  length := List.length_map ..
  task := by
    intro number value task given found
    rw [ofValues, List.getElem?_map, given, Option.map_some] at found
    obtain rfl := Option.some.inj found
    exact ⟨rfl, rfl⟩
  log := nofun

theorem eventsOf_append (tasks tasks' : List Task) (log : List (Nat × Log.Event))
    (mover : Nat) (events : List Log.Event) (number : Nat) :
    eventsOf ⟨tasks, log ++ events.map (mover, ·)⟩ number =
      eventsOf ⟨tasks', log⟩ number ++ if mover = number then events else [] := by
  simp only [eventsOf, List.filter_append, List.map_append, List.append_cancel_left_eq]
  by_cases same : mover = number <;> simp [same, List.filter_map, Function.comp_def]

theorem Follows.step {values : List Value} (follows : pool.Follows bounds values)
    (stepped : pool.step bounds crew number = some next) : next.Follows bounds values := by
  obtain ⟨task, task', events, found, moves, rfl⟩ := step_cases stepped
  refine ⟨(List.length_set ..).trans follows.length, ?_, ?_⟩
  · intro other value task'' given found'
    rw [eventsOf_append _ pool.tasks]
    by_cases same : number = other
    · subst same
      rw [if_pos rfl]
      have before := follows.task given found
      have inside := (List.getElem?_eq_some_iff.mp found).1
      rw [List.getElem?_set_self inside] at found'
      obtain rfl := Option.some.inj found'
      exact before.moves moves
    · rw [if_neg same, List.append_nil]
      rw [List.getElem?_set_ne same] at found'
      exact follows.task given found'
  · intro other event member
    rcases List.mem_append.mp member with before | added
    · exact follows.log before
    · obtain ⟨_, logged, same⟩ := List.mem_map.mp added
      cases same
      have inside := follows.length ▸ (List.getElem?_eq_some_iff.mp found).1
      have given := List.getElem?_eq_getElem inside
      exact ⟨_, List.getElem_mem inside, (follows.task given found).mem_of_moves moves logged⟩

end Pool

end Reckoner.Answer
