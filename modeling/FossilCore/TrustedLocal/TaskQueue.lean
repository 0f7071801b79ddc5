import FossilCore.Base.KeyMap
import FossilCore.Base.Latest
import FossilCore.TrustedLocal.Directives

/-!
# The task queues

`parse_ready_local_tasks` of `trusted_local_broker.py`, `trusted_local_queue.py` and the queue of
`privileged_local_verifier.py`.  Both queues read a comment as at most one directive; the lines of
the log that direct a task are defined beside them, and a queue offers a task whose latest line
withdraws it exactly where such a line is overlooked.
-/

namespace FossilCore

open Base Base.Pattern

/-! ## Machine-ready tasks -/

structure QueueTask where
  task_id : String
  repo : String
  access : String
  starting_ref : String
  role : String
  spec : String
  comment_id : Option ℤ
  deriving DecidableEq, Repr

def DEFAULT_REPOS : List String :=
  ["Pukujan/fossil-core", "Pukujan/cortex-v4", "Pukujan/litellm-ckff-ops"]

def MODEL_BY_ROLE : List (String × String) :=
  [("terra", "gpt-5.6-terra"), ("luna", "gpt-5.6-luna")]

def PRIVILEGED_ACCESS_CLASSES : List String :=
  ["LOCAL_INFRA", "TRUSTED_SECRET_WORKFLOW", "LIVE_STAGING", "OBJECT_STORE_LIVE"]

/-- The task of a comment, where the comment is machine-ready. -/
def readyLocalTask (comment : Comment) : Option QueueTask := do
  let task_id ← search TASK_DIRECTIVE comment.body
  let role := (fieldValue comment.body "local_role").getD ""
  let repo := (fieldValue comment.body "repo").getD ""
  let starting_ref := (fieldValue comment.body "starting_ref").getD ""
  if fieldValue comment.body "state" = some "READY" ∧ role ∈ MODEL_BY_ROLE.map Prod.fst ∧
      repo ∈ DEFAULT_REPOS ∧ isSha starting_ref then
    return { task_id, repo, access := (fieldValue comment.body "access").getD "CLOUD_SECRETLESS",
             starting_ref, role, spec := comment.body, comment_id := comment.id }
  else none

def parseReadyLocalTasks (comments : List Comment) : List QueueTask :=
  (comments.filter Comment.trusted).filterMap readyLocalTask

structure VerifierTask where
  task_id : String
  repo : String
  access : String
  starting_ref : String
  reviewed_sha : String
  trusted_dispatch_ref : String
  action : String
  spec : String
  comment_id : Option ℤ
  deriving DecidableEq, Repr

/-- The queue task of a work order; its role launches no model. -/
def VerifierTask.queueTask (task : VerifierTask) : QueueTask :=
  ⟨task.task_id, task.repo, task.access, task.starting_ref, "luna", task.spec, task.comment_id⟩

/-- `_parse_task` -/
def parseTask (comment : Comment) : Option VerifierTask := do
  let task_id ← search TASK_DIRECTIVE comment.body
  let access := (fieldValue comment.body "access").getD ""
  let starting_ref := (fieldValue comment.body "starting_ref").getD ""
  let reviewed_sha := (fieldValue comment.body "reviewed_sha").getD ""
  let trusted_dispatch_ref := (fieldValue comment.body "trusted_dispatch_ref").getD ""
  let action := (fieldValue comment.body "verifier_action").getD ""
  let repo := (fieldValue comment.body "repo").getD ""
  if fieldValue comment.body "state" ≠ some "READY" ∨ access ∉ PRIVILEGED_ACCESS_CLASSES ∨
      !([starting_ref, reviewed_sha, trusted_dispatch_ref].all isSha) ∨
      reviewed_sha ≠ starting_ref ∨ fieldValue comment.body "local_role" ≠ some "luna" ∨
      action = "" ∨ repo = "" then none
  else
    return { task_id, repo, access, starting_ref, reviewed_sha, trusted_dispatch_ref, action,
             spec := comment.body, comment_id := comment.id }

/-! ## The two folds -/

/-- The tasks that are active; each is listed once, in the order of the latest activation. -/
structure TaskTable (α : Type) where
  active : KeyMap String α
  order : List String
  listed : ∀ id, active[id]? ≠ none → id ∈ order

namespace TaskTable

variable {α : Type}

def empty : TaskTable α where
  active := ∅
  order := []
  listed _ h := absurd Std.ExtTreeMap.getElem?_empty h

/-- `active.pop(task_id, None)` -/
def forget (table : TaskTable α) (task_id : String) : TaskTable α where
  active := table.active.erase task_id
  order := table.order
  listed id h := by
    rw [KeyMap.get?_erase] at h
    split at h
    · exact absurd rfl h
    · exact table.listed id h

/-- The task is forgotten and leaves the order. -/
def drop (table : TaskTable α) (task_id : String) : TaskTable α where
  active := table.active.erase task_id
  order := table.order.erase task_id
  listed id h := by
    rw [KeyMap.get?_erase] at h
    split at h
    · exact absurd rfl h
    · rename_i hne
      exact (List.mem_erase_of_ne (Ne.symm hne)).mpr (table.listed id h)

/-- The task becomes active and the last of the order. -/
def put (table : TaskTable α) (task_id : String) (task : α) : TaskTable α where
  active := table.active.insert task_id task
  order := table.order.erase task_id ++ [task_id]
  listed id h := by
    by_cases hid : task_id = id
    · subst hid
      exact List.mem_append_right _ List.mem_cons_self
    · rw [KeyMap.get?_insert_ne _ _ hid] at h
      exact List.mem_append_left _ ((List.mem_erase_of_ne (Ne.symm hid)).mpr (table.listed id h))

/-- `[active[task_id] for task_id in order if task_id in active]` -/
def tasks (table : TaskTable α) : List α := table.order.filterMap fun id => table.active[id]?

theorem mem_tasks {table : TaskTable α} {task : α} :
    task ∈ table.tasks ↔ ∃ id : String, table.active[id]? = some task := by
  constructor
  · intro h
    obtain ⟨id, -, hid⟩ := List.mem_filterMap.mp h
    exact ⟨id, hid⟩
  · rintro ⟨id, hid⟩
    have hlisted : id ∈ table.order := table.listed id (by rw [hid]; exact Option.some_ne_none _)
    exact List.mem_filterMap.mpr ⟨id, hlisted, hid⟩

end TaskTable

/-- One step of the loop of `active_ready_local_tasks`. -/
def localStep (table : TaskTable QueueTask) (comment : Comment) : TaskTable QueueTask :=
  if comment.trusted then
    match search TASK_DIRECTIVE comment.body with
    | some task_id =>
        match (parseReadyLocalTasks [comment]).find? (·.task_id = task_id) with
        | none => table.forget task_id
        | some candidate => table.put task_id candidate
    | none =>
        match search CANCEL_TASK comment.body with
        | some task_id => table.drop task_id
        | none =>
            match search TERMINAL_TASK comment.body with
            | some task_id => table.drop task_id
            | none => table
  else table

def activeReadyLocalTasks (comments : List Comment) : List QueueTask :=
  (comments.foldl localStep TaskTable.empty).tasks

/-- One step of the loop of `active_ready_privileged_tasks`. -/
def privilegedStep (table : TaskTable VerifierTask) (comment : Comment) : TaskTable VerifierTask :=
  if comment.trusted then
    match search TASK_DIRECTIVE comment.body with
    | some task_id =>
        match parseTask comment with
        | none => table.drop task_id
        | some task => table.put task_id task
    | none =>
        match search TERMINAL_TASK comment.body with
        | some task_id => table.drop task_id
        | none => table
  else table

def activeReadyPrivilegedTasks (comments : List Comment) : List VerifierTask :=
  (comments.foldl privilegedStep TaskTable.empty).tasks

/-! ## How a queue reads a comment -/

section Reading

variable {α : Type}

/-- The directive as which a comment is read: the task it names, with the version that it makes
active. -/
abbrev Reading (α : Type) := Comment → Option (String × Option α)

/-- A `TASK` directive comes before the patterns that withdraw a task. -/
def reading (parse : Comment → Option α) (withdraw : List (Pattern String)) : Reading α :=
  fun comment =>
    if comment.trusted then
      match search TASK_DIRECTIVE comment.body with
      | some task_id => some (task_id, parse comment)
      | none => (withdraw.findSome? fun m => search m comment.body).map fun task_id => (task_id, none)
    else none

def localReading : Reading QueueTask := reading readyLocalTask [CANCEL_TASK, TERMINAL_TASK]

def privilegedReading : Reading VerifierTask := reading parseTask [TERMINAL_TASK]

/-- What a reading does to the active tasks. -/
def applyReading (active : KeyMap String α) : Option (String × Option α) → KeyMap String α
  | none => active
  | some (task_id, none) => active.erase task_id
  | some (task_id, some task) => active.insert task_id task

/-- The comment is read as a directive for the task. -/
def Directs (read : Reading α) (task_id : String) (comment : Comment) : Prop :=
  ∃ version, read comment = some (task_id, version)

/-- The comment is read as the directive that makes the version active. -/
def ActivatesTask (read : Reading α) (task_id : String) (task : α) (comment : Comment) : Prop :=
  read comment = some (task_id, some task)

theorem get?_applyReading {read : Reading α} {active : KeyMap String α} {comment : Comment}
    {task_id : String} {task : α} :
    (applyReading active (read comment))[task_id]? = some task ↔
      ActivatesTask read task_id task comment ∨
        ¬ Directs read task_id comment ∧ active[task_id]? = some task := by
  unfold ActivatesTask Directs
  match h : read comment with
  | none => simp [applyReading]
  | some (other, none) =>
      by_cases hid : other = task_id
      · subst hid
        simp [applyReading]
      · simp [applyReading, KeyMap.get?_erase_ne _ hid, hid]
  | some (other, some version) =>
      by_cases hid : other = task_id
      · subst hid
        simp [applyReading]
      · simp [applyReading, KeyMap.get?_insert_ne _ _ hid, hid]

/-- A fold whose steps follow the readings holds the version that was activated last. -/
theorem get?_active_foldl {read : Reading α} {step : TaskTable α → Comment → TaskTable α}
    (hstep : ∀ table comment, (step table comment).active = applyReading table.active (read comment))
    (comments : List Comment) (task_id : String) (task : α) :
    (comments.foldl step TaskTable.empty).active[task_id]? = some task ↔
      Latest (ActivatesTask read task_id task) (Directs read task_id) comments := by
  induction comments using List.reverseRecOn with
  | nil =>
      refine ⟨fun h => ?_, fun h => absurd h not_latest_nil⟩
      cases (Std.ExtTreeMap.getElem?_empty (a := task_id)).symm.trans h
  | append_singleton comments comment ih =>
      rw [List.foldl_concat, hstep, get?_applyReading, latest_concat, ih]

end Reading

theorem readyLocalTask_task_id {comment : Comment} {task : QueueTask}
    (h : readyLocalTask comment = some task) :
    search TASK_DIRECTIVE comment.body = some task.task_id := by
  obtain ⟨task_id, hsearch, h⟩ := Option.bind_eq_some_iff.mp h
  dsimp only at h
  split at h
  · cases h
    exact hsearch
  · cases h

theorem parseTask_task_id {comment : Comment} {task : VerifierTask}
    (h : parseTask comment = some task) :
    search TASK_DIRECTIVE comment.body = some task.task_id := by
  obtain ⟨task_id, hsearch, h⟩ := Option.bind_eq_some_iff.mp h
  dsimp only at h
  split at h
  · cases h
  · cases h
    exact hsearch

theorem find?_parseReadyLocalTasks {comment : Comment} {task_id : String}
    (htrusted : comment.trusted = true)
    (hsearch : search TASK_DIRECTIVE comment.body = some task_id) :
    (parseReadyLocalTasks [comment]).find? (·.task_id = task_id) = readyLocalTask comment := by
  rw [parseReadyLocalTasks, List.filter_cons_of_pos htrusted, List.filter_nil]
  cases hparse : readyLocalTask comment with
  | none => rw [List.filterMap_cons_none hparse, List.filterMap_nil, List.find?_nil]
  | some task =>
      have hid : task.task_id = task_id :=
        Option.some.inj ((readyLocalTask_task_id hparse).symm.trans hsearch)
      rw [List.filterMap_cons_some hparse, List.filterMap_nil]
      exact List.find?_cons_of_pos (decide_eq_true hid)

theorem active_localStep (table : TaskTable QueueTask) (comment : Comment) :
    (localStep table comment).active = applyReading table.active (localReading comment) := by
  unfold localStep localReading reading
  by_cases htrusted : comment.trusted = true
  · rw [if_pos htrusted, if_pos htrusted]
    cases hsearch : search TASK_DIRECTIVE comment.body with
    | some task_id =>
        dsimp only
        rw [find?_parseReadyLocalTasks htrusted hsearch]
        cases readyLocalTask comment <;> rfl
    | none =>
        cases hcancel : search CANCEL_TASK comment.body with
        | some task_id => simp [hcancel, TaskTable.drop, applyReading]
        | none =>
            cases hterminal : search TERMINAL_TASK comment.body with
            | some task_id => simp [hcancel, hterminal, TaskTable.drop, applyReading]
            | none => simp [hcancel, hterminal, applyReading]
  · rw [if_neg htrusted, if_neg htrusted]
    rfl

theorem active_privilegedStep (table : TaskTable VerifierTask) (comment : Comment) :
    (privilegedStep table comment).active =
      applyReading table.active (privilegedReading comment) := by
  unfold privilegedStep privilegedReading reading
  by_cases htrusted : comment.trusted = true
  · rw [if_pos htrusted, if_pos htrusted]
    cases hsearch : search TASK_DIRECTIVE comment.body with
    | some task_id => cases parseTask comment <;> rfl
    | none =>
        cases hterminal : search TERMINAL_TASK comment.body with
        | some task_id => simp [hterminal, TaskTable.drop, applyReading]
        | none => simp [hterminal, applyReading]
  · rw [if_neg htrusted, if_neg htrusted]
    rfl

theorem mem_activeReadyLocalTasks {comments : List Comment} {task : QueueTask} :
    task ∈ activeReadyLocalTasks comments ↔
      ∃ task_id, Latest (ActivatesTask localReading task_id task) (Directs localReading task_id)
        comments := by
  rw [activeReadyLocalTasks, TaskTable.mem_tasks]
  exact exists_congr fun task_id => get?_active_foldl active_localStep comments task_id task

theorem mem_activeReadyPrivilegedTasks {comments : List Comment} {task : VerifierTask} :
    task ∈ activeReadyPrivilegedTasks comments ↔
      ∃ task_id, Latest (ActivatesTask privilegedReading task_id task)
        (Directs privilegedReading task_id) comments := by
  rw [activeReadyPrivilegedTasks, TaskTable.mem_tasks]
  exact exists_congr fun task_id => get?_active_foldl active_privilegedStep comments task_id task

/-! ## The lines that direct a task -/

inductive LifecycleKind where
  | task
  | cancel
  | done
  | blocked
  deriving DecidableEq, Repr

def LifecycleKind.keyword : LifecycleKind → String
  | .task => "TASK"
  | .cancel => "CANCEL"
  | .done => "DONE"
  | .blocked => "BLOCKED"

/-- A directive line; it is whole where the line ends with the name of the task. -/
structure LifecycleLine where
  kind : LifecycleKind
  task : String
  whole : Bool
  deriving DecidableEq, Repr

def lifecycleLine (kind : LifecycleKind) : Pattern LifecycleLine := do
  let task ← directive kind.keyword
  let rest ← get
  return ⟨kind, task, (lineEnd.run rest).isSome⟩

def LIFECYCLE_LINE : Pattern LifecycleLine :=
  lifecycleLine .task <|> lifecycleLine .cancel <|> lifecycleLine .done <|> lifecycleLine .blocked

/-- The directive lines of a comment, in the order of its lines. -/
def lifecycleLines (comment : Comment) : List LifecycleLine :=
  (lineStarts comment.body.toList).filterMap fun start => (LIFECYCLE_LINE.run start).map Prod.fst

/-- The directive lines of the trusted comments, each with its comment. -/
def lifecycleLog (comments : List Comment) : List (Comment × LifecycleLine) :=
  (comments.filter Comment.trusted).flatMap fun comment =>
    (lifecycleLines comment).map fun line => (comment, line)

/-- The last directive line of a task. -/
def latestDirective (comments : List Comment) (task_id : String) : Option (Comment × LifecycleLine) :=
  ((lifecycleLog comments).filter fun entry => entry.2.task = task_id).getLast?

section Overlooked

variable {α : Type}

/-- A whole `TASK` line of a comment that parses to a machine-ready task of that name. -/
def IsReadyDirective (parse : Comment → Option α) (task_id : α → String)
    (entry : Comment × LifecycleLine) : Prop :=
  entry.2.kind = .task ∧ entry.2.whole = true ∧
    ∃ task, parse entry.1 = some task ∧ task_id task = entry.2.task

/-- The queue offers a task only while its latest directive is a ready one. -/
def OffersReady (queue : List Comment → List α) (parse : Comment → Option α) (task_id : α → String)
    (comments : List Comment) : Prop :=
  ∀ task ∈ queue comments, ∃ entry,
    latestDirective comments (task_id task) = some entry ∧ IsReadyDirective parse task_id entry

/-- Where a comment is read as the directive that makes a task active, and no comment behind it is
read as a directive for that task: no trusted comment behind it has a directive line of the task,
and the last such line of the comment itself is a whole `TASK` line. -/
def NothingOverlooked (read : Reading α) (comments : List Comment) : Prop :=
  ∀ before comment after task_id task, comments = before ++ comment :: after →
    ActivatesTask read task_id task comment → (∀ later ∈ after, ¬ Directs read task_id later) →
      (∀ entry ∈ lifecycleLog after, entry.2.task ≠ task_id) ∧
        ∃ line, ((lifecycleLines comment).filter (·.task = task_id)).getLast? = some line ∧
          line.kind = .task ∧ line.whole = true

theorem latestDirective_append (xs ys : List Comment) (task_id : String) :
    latestDirective (xs ++ ys) task_id =
      (latestDirective ys task_id).or (latestDirective xs task_id) := by
  rw [latestDirective, lifecycleLog, List.filter_append, List.flatMap_append, List.filter_append,
    List.getLast?_append]
  rfl

theorem latestDirective_eq_none_iff {comments : List Comment} {task_id : String} :
    latestDirective comments task_id = none ↔
      ∀ entry ∈ lifecycleLog comments, entry.2.task ≠ task_id := by
  rw [latestDirective, List.getLast?_eq_none_iff, List.filter_eq_nil_iff]
  simp only [decide_eq_true_eq, ne_eq]

theorem latestDirective_singleton {comment : Comment} (h : comment.trusted = true)
    (task_id : String) :
    latestDirective [comment] task_id =
      (((lifecycleLines comment).filter (·.task = task_id)).getLast?).map (comment, ·) := by
  rw [latestDirective, lifecycleLog, List.filter_cons_of_pos h, List.filter_nil,
    List.flatMap_singleton, List.filter_map, List.getLast?_map]
  rfl

theorem mem_of_latestDirective {comments : List Comment} {task_id : String}
    {entry : Comment × LifecycleLine} (h : latestDirective comments task_id = some entry) :
    entry.1 ∈ comments ∧ entry.1.trusted = true ∧ entry.2.task = task_id := by
  have hmem := List.mem_filter.mp (List.mem_of_getLast? h)
  obtain ⟨comment, hcomment, hentry⟩ := List.mem_flatMap.mp hmem.1
  obtain ⟨line, -, rfl⟩ := List.mem_map.mp hentry
  obtain ⟨hin, htrusted⟩ := List.mem_filter.mp hcomment
  exact ⟨hin, htrusted, of_decide_eq_true hmem.2⟩

variable {read : Reading α} {parse : Comment → Option α} {task_id : α → String}
  {queue : List Comment → List α}

theorem latestDirective_split {comment : Comment} (h : comment.trusted = true)
    (before after : List Comment) (task_id : String) :
    latestDirective (before ++ comment :: after) task_id =
      ((latestDirective after task_id).or
        ((((lifecycleLines comment).filter (·.task = task_id)).getLast?).map (comment, ·))).or
          (latestDirective before task_id) := by
  rw [← List.singleton_append, latestDirective_append, latestDirective_append,
    latestDirective_singleton h]

/-- A queue that offers the versions activated last offers ready tasks alone exactly where no
directive line is overlooked. -/
theorem offersReady_iff
    (hqueue : ∀ comments task, task ∈ queue comments ↔
      ∃ id, Latest (ActivatesTask read id task) (Directs read id) comments)
    (hread : ∀ id task comment, ActivatesTask read id task comment ↔
      comment.trusted = true ∧ parse comment = some task ∧ task_id task = id)
    (hline : ∀ task comment, parse comment = some task →
      ∃ line ∈ lifecycleLines comment, line.task = task_id task)
    (comments : List Comment) :
    OffersReady queue parse task_id comments ↔ NothingOverlooked read comments := by
  constructor
  · intro h before comment after id task hlog hactive hafter
    have hoffered : task ∈ queue comments :=
      (hqueue comments task).mpr ⟨id, before, comment, after, hlog, hactive, hafter⟩
    obtain ⟨htrusted, hparse, hid⟩ := (hread id task comment).mp hactive
    obtain ⟨entry, hlatest, hkind, hwhole, version, hversion, hname⟩ := h task hoffered
    rw [hid, hlog, latestDirective_split htrusted] at hlatest
    have hnone : latestDirective after id = none := by
      cases hlater : latestDirective after id with
      | none => rfl
      | some other =>
          rw [hlater] at hlatest
          cases hlatest
          obtain ⟨hmem, htrusted', htask⟩ := mem_of_latestDirective hlater
          have hactive' : ActivatesTask read id version entry.1 :=
            (hread id version entry.1).mpr ⟨htrusted', hversion, hname.trans htask⟩
          exact absurd ⟨_, hactive'⟩ (hafter entry.1 hmem)
    refine ⟨latestDirective_eq_none_iff.mp hnone, ?_⟩
    rw [hnone, Option.none_or] at hlatest
    cases hlast : ((lifecycleLines comment).filter (·.task = id)).getLast? with
    | none =>
        obtain ⟨line, hmem, htask⟩ := hline task comment hparse
        have hempty := List.getLast?_eq_none_iff.mp hlast
        exact absurd (htask.trans hid)
          (by simpa using List.filter_eq_nil_iff.mp hempty line hmem)
    | some line =>
        rw [hlast] at hlatest
        cases hlatest
        exact ⟨line, rfl, hkind, hwhole⟩
  · intro h task hoffered
    obtain ⟨id, before, comment, after, hlog, hactive, hafter⟩ := (hqueue comments task).mp hoffered
    obtain ⟨htrusted, hparse, hid⟩ := (hread id task comment).mp hactive
    obtain ⟨hlater, line, hlast, hkind, hwhole⟩ :=
      h before comment after id task hlog hactive hafter
    refine ⟨(comment, line), ?_, hkind, hwhole, task, hparse, ?_⟩
    · rw [hid, hlog, latestDirective_split htrusted, latestDirective_eq_none_iff.mpr hlater, hlast]
      rfl
    · have hmem := List.mem_filter.mp (List.mem_of_getLast? hlast)
      exact hid.trans (of_decide_eq_true hmem.2).symm

end Overlooked

/-- A `TASK` directive is a directive line of its task. -/
theorem exists_lifecycleLine {comment : Comment} {task_id : String}
    (h : search TASK_DIRECTIVE comment.body = some task_id) :
    ∃ line ∈ lifecycleLines comment, line.task = task_id := by
  obtain ⟨start, hstart, hmatch⟩ := List.exists_of_findSome?_eq_some h
  obtain ⟨⟨found, rest⟩, hwhole, hfound⟩ := Option.map_eq_some_iff.mp hmatch
  obtain rfl : found = task_id := hfound
  obtain ⟨name, middle, htask, htail⟩ := run_bind_eq_some.mp hwhole
  obtain ⟨⟨⟩, behind, hend, hname⟩ := run_bind_eq_some.mp htail
  obtain ⟨rfl, -⟩ := run_pure_eq_some.mp hname
  have hline : (lifecycleLine .task).run start =
      some (⟨.task, name, (lineEnd.run middle).isSome⟩, middle) :=
    run_bind_eq_some.mpr ⟨name, middle, htask, rfl⟩
  refine ⟨⟨.task, name, (lineEnd.run middle).isSome⟩, ?_, rfl⟩
  refine List.mem_filterMap.mpr ⟨start, hstart, ?_⟩
  rw [LIFECYCLE_LINE, run_orElse, hline]
  rfl

theorem activates_reading_iff {α : Type} {parse : Comment → Option α}
    {withdraw : List (Pattern String)} {name : α → String}
    (hname : ∀ comment task, parse comment = some task →
      search TASK_DIRECTIVE comment.body = some (name task))
    (task_id : String) (task : α) (comment : Comment) :
    ActivatesTask (reading parse withdraw) task_id task comment ↔
      comment.trusted = true ∧ parse comment = some task ∧ name task = task_id := by
  unfold ActivatesTask reading
  by_cases htrusted : comment.trusted = true
  · rw [if_pos htrusted]
    constructor
    · intro h
      split at h
      · rename_i found hsearch
        obtain ⟨rfl, hparse⟩ := Prod.mk.inj (Option.some.inj h)
        exact ⟨htrusted, hparse, Option.some.inj ((hname comment task hparse).symm.trans hsearch)⟩
      · obtain ⟨found, -, hfound⟩ := Option.map_eq_some_iff.mp h
        cases hfound
    · rintro ⟨-, hparse, rfl⟩
      rw [hname comment task hparse, hparse]
  · rw [if_neg htrusted]
    constructor
    · intro h
      cases h
    · rintro ⟨h, -⟩
      exact absurd h htrusted

/-- Each queue offers ready tasks alone exactly where it overlooks no directive line. -/
theorem active_ready_tasks_offer_ready_iff (comments : List Comment) :
    (OffersReady activeReadyLocalTasks readyLocalTask QueueTask.task_id comments ↔
        NothingOverlooked localReading comments) ∧
      (OffersReady activeReadyPrivilegedTasks parseTask VerifierTask.task_id comments ↔
        NothingOverlooked privilegedReading comments) := by
  refine ⟨?_, ?_⟩
  · apply offersReady_iff
    · exact fun comments task => mem_activeReadyLocalTasks
    · exact activates_reading_iff fun comment task h => readyLocalTask_task_id h
    · exact fun task comment h => exists_lifecycleLine (readyLocalTask_task_id h)
  · apply offersReady_iff
    · exact fun comments task => mem_activeReadyPrivilegedTasks
    · exact activates_reading_iff fun comment task h => parseTask_task_id h
    · exact fun task comment h => exists_lifecycleLine (parseTask_task_id h)

/-- A ready task of the privileged queue. -/
def probeTask : Comment :=
  let sha := "0123456789abcdef0123456789abcdef01234567"
  { login := some "Pukujan", id := some 1,
    body := "TASK task=PROBE-1\nstate=READY\nrepo=Pukujan/fossil-core\naccess=LIVE_STAGING" ++
      "\nlocal_role=luna\nverifier_action=probe\nstarting_ref=" ++ sha ++ "\nreviewed_sha=" ++ sha ++
      "\ntrusted_dispatch_ref=" ++ sha }

def cancelProbe : Comment := ⟨some "Pukujan", "CANCEL task=PROBE-1", some 2⟩

theorem parseTask_probeTask :
    (parseTask probeTask).map VerifierTask.task_id = some "PROBE-1" := by
  -- The kernel decodes a long literal slowly, so the text is taken apart first.
  simp only [parseTask, fieldValue, search, finditer, probeTask, String.toList_append]
  decide +kernel

/-- The privileged queue has no pattern for a cancellation. -/
theorem cancelled_task_is_offered :
    ¬ ∀ comments, OffersReady activeReadyLocalTasks readyLocalTask QueueTask.task_id comments ∧
      OffersReady activeReadyPrivilegedTasks parseTask VerifierTask.task_id comments := by
  intro h
  obtain ⟨task, hparse, hid⟩ := Option.map_eq_some_iff.mp parseTask_probeTask
  have hactive : ActivatesTask privilegedReading "PROBE-1" task probeTask :=
    (activates_reading_iff (fun comment task h => parseTask_task_id h) _ _ _).mpr
      ⟨by decide, hparse, hid⟩
  have hoffered : task ∈ activeReadyPrivilegedTasks [probeTask, cancelProbe] := by
    refine mem_activeReadyPrivilegedTasks.mpr ⟨"PROBE-1", [], probeTask, [cancelProbe], rfl,
      hactive, fun later hlater => ?_⟩
    have hread : privilegedReading cancelProbe = none := by decide +kernel
    rintro ⟨version, hversion⟩
    rw [List.mem_singleton.mp hlater, hread] at hversion
    cases hversion
  have hlatest : (latestDirective [cancelProbe] "PROBE-1").map (·.2.kind) = some .cancel := by
    decide +kernel
  obtain ⟨entry, hentry, hkind, -⟩ := (h [probeTask, cancelProbe]).2 task hoffered
  obtain ⟨cancel, hcancel, hcancelled⟩ := Option.map_eq_some_iff.mp hlatest
  rw [hid, ← List.singleton_append, latestDirective_append, hcancel] at hentry
  cases hentry
  rw [hkind] at hcancelled
  cases hcancelled

end FossilCore
