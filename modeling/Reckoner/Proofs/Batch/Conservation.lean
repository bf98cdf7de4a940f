import Reckoner.Proofs.Batch.Schedule

/-!
No event of a batch is lost and none is made up. Whatever events are made to weigh, those that are
logged and those that are still to be logged together keep their weight in every step, and at the
end of the batch all of it is in the log.
-/
namespace Reckoner.Answer

variable {bounds : Bounds} (weight : Log.Event → Nat)

def weightOf (events : List Log.Event) : Nat := (events.map weight).sum

theorem weightOf_cons (event : Log.Event) (rest : List Log.Event) :
    weightOf weight (event :: rest) = weight event + weightOf weight rest := rfl

theorem weightOf_singleton (event : Log.Event) : weightOf weight [event] = weight event := rfl

theorem weightOf_append (front back : List Log.Event) :
    weightOf weight (front ++ back) = weightOf weight front + weightOf weight back := by
  rw [weightOf, List.map_append, List.sum_append, weightOf, weightOf]

theorem weightOf_flatMap {α : Type} (events : α → List Log.Event) (items : List α) :
    weightOf weight (items.flatMap events) =
      (items.map fun item => weightOf weight (events item)).sum := by
  induction items with
  | nil => rfl
  | cons item rest ih =>
    rw [List.flatMap_cons, weightOf_append, ih, List.map_cons, List.sum_cons]

def Task.due (bounds : Bounds) : Task → Nat
  | waiting value => weightOf weight (evaluate bounds value).events
  | working rest => weightOf weight rest.events
  | done _ => 0

theorem Task.due_of_moves {task task' : Task} {events : List Log.Event}
    (moves : task.Moves bounds task' events) :
    task'.due weight bounds + weightOf weight events = task.due weight bounds := by
  cases moves with
  | take value => rfl
  | log result event later =>
    change weightOf weight later + weightOf weight [event] = weightOf weight (event :: later)
    rw [weightOf_singleton, weightOf_cons, Nat.add_comm]
  | finish result => rfl

namespace Pool

def total (bounds : Bounds) (pool : Pool) : Nat :=
  weightOf weight (pool.log.map (·.2)) + (pool.tasks.map (Task.due weight bounds)).sum

variable {crew number : Nat} {pool next : Pool}

theorem total_ofValues (values : List Value) :
    (ofValues values).total weight bounds =
      (values.map fun value => weightOf weight (evaluate bounds value).events).sum := by
  rw [total, ofValues, List.map_map]
  exact Nat.zero_add _

theorem total_step (stepped : pool.step bounds crew number = some next) :
    next.total weight bounds = pool.total weight bounds := by
  obtain ⟨task, task', events, found, moves, rfl⟩ := step_cases stepped
  have sums := sum_map_set (Task.due weight bounds) found task'
  have due := Task.due_of_moves weight moves
  have added : (events.map (number, ·)).map (·.2) = events := by
    rw [List.map_map]
    exact List.map_id events
  simp only [total, List.map_append, added, weightOf_append]
  omega

theorem total_follow {schedule : List Nat}
    (run : pool.follow bounds crew schedule = some next) :
    next.total weight bounds = pool.total weight bounds := by
  induction schedule generalizing pool with
  | nil =>
    obtain rfl := Option.some.inj run
    rfl
  | cons number later ih =>
    rw [follow_cons] at run
    obtain ⟨middle, stepped, run⟩ := Option.bind_eq_some_iff.mp run
    exact (ih run).trans (total_step weight stepped)

theorem weightOf_log {values : List Value} {schedule : List Nat} {results : List Result}
    (run : (ofValues values).follow bounds crew schedule = some pool)
    (ended : pool.results? = some results) :
    weightOf weight (pool.log.map (·.2)) =
      (values.map fun value => weightOf weight (evaluate bounds value).events).sum := by
  have nothing : (pool.tasks.map (Task.due weight bounds)).sum = 0 := by
    rw [mapM_result?_eq_some_iff.mp ended, List.map_map]
    exact List.sum_eq_zero fun due member => by
      obtain ⟨result, _, rfl⟩ := List.mem_map.mp member
      rfl
  have kept := total_follow weight run
  rw [total_ofValues, total, nothing] at kept
  exact kept

end Pool

end Reckoner.Answer
