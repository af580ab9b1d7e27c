import RouteRegistry.Registry.Answers
import RouteRegistry.Registry.System

/-!
# Tasks (`celery.py`)

A worker takes a message out of the queue and runs its task. What becomes of messages is up to
Celery and the broker, of which this is assumed:

- a message is acknowledged when a worker takes it (`task_acks_late` is not set): it is delivered
  once, and is gone if the worker is (`lose`);
- a task that raises has a class of `autoretry_for`, and is sent once more at most, with its retries
  counted, while there have been less than `max_retries` (`Celery.documented`).

- `TaskProxy.normalizeName`: the tasks as attributes.
- `attempt`: one run of a message.
- `TaskTable.left`: how often a task can still be run. An attempt uses some of it up
  (`attempt_left`).
-/

namespace RouteRegistry

open UnitOfWork Calls

/-- `name.split(".")[-1]`. -/
def TaskProxy.normalizeName (name : List Char) : List Char := (name.splitOn '.').getLastD []

/-- The names of the attributes: of all registered tasks but those of `celery` itself. -/
def TaskProxy.names (tasks : List (List Char)) : List (List Char) :=
  (tasks.filter fun n => !"celery.".toList.isPrefixOf n).map TaskProxy.normalizeName

/-- The tasks of `bind_tasks`, beside those of `celery`. -/
example : TaskProxy.names ["celery.chord".toList, "route_registry.celery.update_route".toList,
      "route_registry.celery.notify_route_table_update".toList] =
    ["update_route".toList, "notify_route_table_update".toList] := by decide

/-- Celery: the messages that are sent for one whose task raised, under `max_retries`. -/
structure Celery where
  resend : (maxRetries : Nat) → Message → List Message
  documented : ∀ maxRetries m, resend maxRetries m = [] ∨
    m.retries < maxRetries ∧ resend maxRetries m = [⟨m.task, m.retries + 1⟩]

/-- It gives up no earlier than it has to. -/
def Celery.tireless : Celery where
  resend maxRetries m := if m.retries < maxRetries then [⟨m.task, m.retries + 1⟩] else []
  documented maxRetries m := by
    by_cases h : m.retries < maxRetries
    · exact .inr ⟨h, if_pos h⟩
    · exact .inl (if_neg h)

/-- `max_retries` of the tables `TASKS.update_route.celery` and `TASKS.webhook_task.celery`, and the
worker that is told them. -/
structure TaskTable where
  updateRoute : Option Nat := none
  webhookTask : Option Nat := none
  celery : Celery := .tireless

def TaskTable.maxRetries (table : TaskTable) : Task → Nat
  | .updateRoute _ _ => table.updateRoute.getD 5
  | .notifyRouteTableUpdate => table.webhookTask.getD 5

/-- `HolePunchClient.notify_route_update`. No clause names the classes of its errors. -/
def notifyRouteUpdate (fetch : Fetch) : Except Exc Unit :=
  match process fetch with
  | .ok _ => .ok ()
  | .error e =>
    if e.isInstance .apiClientConnectionException then
      .error ⟨.lib (.other "ConnectionException"), "Unable to connect to HolePunch", some 200⟩
    else if e.isInstance .authorizationClientException then
      .error ⟨.lib (.other "ClientException"), e.msg, e.statusCode⟩
    else .error e

/-- A task; `fetch` is the fate of its request. -/
def Task.run (eng : Engine) (setup : Setup) (now : Time) (fetch : Fetch) : Task → Service Unit
  | .updateRoute routeId _ => RouteRegistry.updateRoute eng setup.schema routeId fetch now
  | .notifyRouteTableUpdate => Calls.ofExcept (notifyRouteUpdate fetch)

/-- The messages that follow from one whose task raised. -/
def TaskTable.retry (table : TaskTable) (m : Message) : List Message :=
  table.celery.resend (table.maxRetries m.task) m

/-- A worker runs the message at `i`. -/
def attempt (eng : Engine) (setup : Setup) (table : TaskTable) (now : Time) (fetch : Fetch)
    (i : Nat) (b : Backend) : Option Backend :=
  match b.queue[i]? with
  | none => none
  | some m =>
    match m.task.run eng setup now fetch b.db with
    | .ok _ db => some ⟨db, b.queue.eraseIdx i⟩
    | .error _ db => some ⟨db, b.queue.eraseIdx i ++ table.retry m⟩

/-- A worker is lost with the message at `i`, which has been acknowledged. -/
def lose (i : Nat) (b : Backend) : Option Backend :=
  match b.queue[i]? with
  | none => none
  | some _ => some { b with queue := b.queue.eraseIdx i }

section Attempts

variable {eng : Engine} {setup : Setup} {table : TaskTable} {now : Time} {fetch : Fetch}
  {i : Nat} {b b' : Backend}

/-- What an attempt does. -/
theorem attempt_cases (h : attempt eng setup table now fetch i b = some b') :
    ∃ m, b.queue[i]? = some m ∧ b'.db = (m.task.run eng setup now fetch).after b.db ∧
      (b'.queue = b.queue.eraseIdx i ∨ b'.queue = b.queue.eraseIdx i ++ table.retry m) := by
  unfold attempt at h
  cases hm : b.queue[i]? with
  | none =>
    rw [hm] at h
    cases h
  | some m =>
    rw [hm] at h
    dsimp only at h
    cases hrun : m.task.run eng setup now fetch b.db with
    | ok u db =>
      rw [hrun] at h
      cases h
      exact ⟨m, rfl, (Service.after_of_ok hrun).symm, .inl rfl⟩
    | error e db =>
      rw [hrun] at h
      cases h
      exact ⟨m, rfl, (Service.after_of_error hrun).symm, .inr rfl⟩

theorem lose_cases (h : lose i b = some b') :
    (∃ m, b.queue[i]? = some m) ∧ b'.db = b.db ∧ b'.queue = b.queue.eraseIdx i := by
  unfold lose at h
  cases hm : b.queue[i]? with
  | none =>
    rw [hm] at h
    cases h
  | some m =>
    rw [hm] at h
    cases h
    exact ⟨⟨m, rfl⟩, rfl, rfl⟩

/-- A task does to the store nothing, or what the block of an update does. -/
theorem Task.after_run (eng : Engine) (setup : Setup) (now : Time) (fetch : Fetch) (task : Task)
    (db : Database) :
    (task.run eng setup now fetch).after db = db ∨
      ∃ id authzPath, task = .updateRoute id authzPath ∧
        (task.run eng setup now fetch).after db =
          ((Transaction.updateRoute id fetch).run eng setup now).after db := by
  cases task with
  | updateRoute id authzPath =>
    exact .inr ⟨id, authzPath, rfl, updateRoute_after setup id fetch now db⟩
  | notifyRouteTableUpdate => exact .inl (after_readOnly (readOnly_ofExcept _) db)

/-- What is put back is the task itself. -/
theorem TaskTable.mem_retry {m m' : Message} (h : m' ∈ table.retry m) :
    m'.task = m.task ∧ m'.retries = m.retries + 1 ∧ m'.retries ≤ table.maxRetries m.task := by
  unfold TaskTable.retry at h
  rcases table.celery.documented (table.maxRetries m.task) m with hnone | ⟨hlt, hsome⟩
  · rw [hnone] at h
    cases h
  · rw [hsome, List.mem_singleton] at h
    subst h
    exact ⟨rfl, rfl, hlt⟩

/-- A message that an attempt leaves was there, or is the one that was run. -/
theorem attempt_queue (h : attempt eng setup table now fetch i b = some b') {m : Message}
    (hm : m ∈ b'.queue) :
    m ∈ b.queue ∨ ∃ m₀ ∈ b.queue, m.task = m₀.task ∧ m.retries ≤ table.maxRetries m.task := by
  obtain ⟨m₀, hm₀, -, hqueue | hqueue⟩ := attempt_cases h
  · rw [hqueue] at hm
    exact .inl (List.mem_of_mem_eraseIdx hm)
  · rw [hqueue] at hm
    rcases List.mem_append.mp hm with hm | hm
    · exact .inl (List.mem_of_mem_eraseIdx hm)
    · obtain ⟨htask, -, hretries⟩ := TaskTable.mem_retry hm
      exact .inr ⟨m₀, List.mem_of_getElem? hm₀, htask, htask ▸ hretries⟩

/-- How often a task can still be run by the messages of a queue. -/
def TaskTable.left (table : TaskTable) (task : Task) : List Message → Nat
  | [] => 0
  | m :: queue =>
    (if m.task = task then table.maxRetries task + 1 - m.retries else 0) + table.left task queue

section Left

variable (table : TaskTable) (task : Task)

theorem TaskTable.left_append (queue queue' : List Message) :
    table.left task (queue ++ queue') = table.left task queue + table.left task queue' := by
  induction queue with
  | nil => exact (Nat.zero_add _).symm
  | cons m queue ih =>
    simp only [List.cons_append, TaskTable.left]
    omega

theorem TaskTable.left_eraseIdx (queue : List Message) {m : Message} (h : queue[i]? = some m) :
    table.left task (queue.eraseIdx i) +
      (if m.task = task then table.maxRetries task + 1 - m.retries else 0) =
        table.left task queue := by
  induction queue generalizing i with
  | nil => cases h
  | cons m₀ queue ih =>
    cases i with
    | zero =>
      cases h
      exact Nat.add_comm _ _
    | succ i =>
      have hrest := ih h
      simp only [List.eraseIdx_cons_succ, TaskTable.left]
      omega

/-- What is put back can be run once less. -/
theorem TaskTable.left_retry {m : Message} (h : m.retries ≤ table.maxRetries m.task) :
    table.left task (table.retry m) + (if m.task = task then 1 else 0) ≤
      if m.task = task then table.maxRetries task + 1 - m.retries else 0 := by
  unfold TaskTable.retry
  by_cases htask : m.task = task
  · subst htask
    rcases table.celery.documented (table.maxRetries m.task) m with hnone | ⟨hlt, hsome⟩
    · simp only [hnone, if_true, TaskTable.left]
      omega
    · simp only [hsome, if_true, TaskTable.left]
      omega
  · rcases table.celery.documented (table.maxRetries m.task) m with hnone | ⟨-, hsome⟩
    · simp only [hnone, if_neg htask, TaskTable.left]
      omega
    · simp only [hsome, if_neg htask, TaskTable.left]
      omega

end Left

/-- **An attempt uses up a run** of the task it takes. -/
theorem attempt_left (h : attempt eng setup table now fetch i b = some b')
    (hqueue : ∀ m ∈ b.queue, m.retries ≤ table.maxRetries m.task) (task : Task) :
    ∃ m, b.queue[i]? = some m ∧
      table.left task b'.queue + (if m.task = task then 1 else 0) ≤ table.left task b.queue := by
  obtain ⟨m, hm, -, hleft⟩ := attempt_cases h
  have herase := table.left_eraseIdx task b.queue hm
  have hretry := table.left_retry task (hqueue m (List.mem_of_getElem? hm))
  refine ⟨m, hm, ?_⟩
  rcases hleft with hleft | hleft
  · rw [hleft]
    omega
  · rw [hleft, table.left_append]
    omega

theorem lose_left (h : lose i b = some b') (task : Task) :
    table.left task b'.queue ≤ table.left task b.queue := by
  obtain ⟨⟨m, hm⟩, -, hleft⟩ := lose_cases h
  have herase := table.left_eraseIdx task b.queue hm
  rw [hleft]
  omega

end Attempts

end RouteRegistry
