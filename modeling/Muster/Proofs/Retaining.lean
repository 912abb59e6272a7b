import Muster.Proofs.Operations

/-!
# What the document of jobs retains

A list of jobs is read back from its document exactly if its numbers fit 32 bits and its times are moments of the
calendar, which those of every job are. So a list that is read, edited and written any number of times is what the
edits make of it. An entry of an older document may lack members; these are empty, and the others are as they stand
there.
-/

namespace Muster

open Json (Spelled Stored)

namespace Json.Spelled

/-- An object without the members of some names. -/
def lacking (names : List String) : Spelled → Spelled
  | .object members => .object (members.filter fun e => e.1.all fun name => !names.contains name)
  | v => v

/-- The members of an object whose names can be told. -/
theorem members_eq_of_mapM {members : List (Option String × Spelled)} {named : List (String × Spelled)}
    (h : (members.mapM fun (name, value) => do return (← name, value)) = some named) :
    members = named.map fun e => (some e.1, e.2) := by
  induction members generalizing named with
  | nil =>
    cases h
    rfl
  | cons member rest ih =>
    obtain ⟨name, value⟩ := member
    simp only [List.mapM_cons, bind, Option.bind_eq_some_iff] at h
    obtain ⟨_, ⟨name, rfl, heq⟩, named, hrest, hnamed⟩ := h
    cases heq
    cases hnamed
    rw [ih hrest]
    rfl

theorem mapM_named (named : List (String × Spelled)) :
    ((named.map fun e => (some e.1, e.2)).mapM fun (name, value) => do return (← name, value)) = some named := by
  rw [List.mapM_map]
  exact (mapM_some fun e _ => rfl).trans (by rw [List.map_id'])

/-- The fields of an object in which none is repeated. -/
theorem fields?_object {named : List (String × Spelled)} {names : List String}
    (h : ∀ name ∈ names, (named.filter fun e => e.1 == name).length ≤ 1) :
    (Spelled.object (named.map fun e => (some e.1, e.2))).fields? names =
      some (names.map fun name => named.lookup name) := by
  have hany : (names.any fun name => 1 < (named.filter fun e => e.1 == name).length) = false := by
    rw [List.any_eq_false]
    intro name hname
    simpa using h name hname
  refine Option.bind_eq_some_iff.2 ⟨named, mapM_named named, ?_⟩
  rw [hany]
  rfl

theorem named_of_fields? {members : List (Option String × Spelled)} {names : List String}
    {fields : List (Option Spelled)} (h : (Spelled.object members).fields? names = some fields) :
    ∃ named : List (String × Spelled), members = named.map (fun e => (some e.1, e.2)) ∧
      (∀ name ∈ names, (named.filter fun e => e.1 == name).length ≤ 1) ∧
      fields = names.map fun name => named.lookup name := by
  obtain ⟨named, hnamed, h⟩ := Option.bind_eq_some_iff.1 h
  split at h
  · cases h
  · rename_i hany
    cases h
    exact ⟨named, members_eq_of_mapM hnamed, by simpa using hany, rfl⟩

theorem lookup_filter (named : List (String × Spelled)) (gone : List String) (name : String) :
    (named.filter fun e => !gone.contains e.1).lookup name = if name ∈ gone then none else named.lookup name := by
  induction named with
  | nil => simp
  | cons e rest ih =>
    obtain ⟨first, value⟩ := e
    by_cases hgone : first ∈ gone
    · rw [List.filter_cons_of_neg (by simpa using hgone), ih, List.lookup_cons]
      by_cases hname : name = first
      · rw [hname, if_pos hgone, if_pos hgone]
      · have hne : (name == first) = false := beq_false_of_ne hname
        rw [hne]
    · rw [List.filter_cons_of_pos (by simpa using hgone), List.lookup_cons, List.lookup_cons]
      by_cases hname : name = first
      · simp [hname, hgone]
      · have hne : (name == first) = false := beq_false_of_ne hname
        rw [hne]
        exact ih

/-- Of an object that lacks members the others are as they were. -/
theorem fields?_lacking {named : List (String × Spelled)} {names : List String}
    (h : ∀ name ∈ names, (named.filter fun e => e.1 == name).length ≤ 1) (gone : List String) :
    ((Spelled.object (named.map fun e => (some e.1, e.2))).lacking gone).fields? names =
      some (names.map fun name => if name ∈ gone then none else named.lookup name) := by
  have hlacking : (Spelled.object (named.map fun e => (some e.1, e.2))).lacking gone =
      .object ((named.filter fun e => !gone.contains e.1).map fun e => (some e.1, e.2)) := by
    simp only [lacking, List.filter_map]
    rfl
  rw [hlacking, fields?_object]
  · simp only [lookup_filter]
  · intro name hname
    exact Nat.le_trans ((List.filter_sublist.filter _).length_le) (h name hname)

end Json.Spelled

namespace Job

/-- The members that an entry may lack. -/
def optionalNames : List String :=
  ["name", "arguments", "sweep", "node_pattern", "node_groups", "specified_nodes", "failed_nodes",
    "cancel_failed_nodes", "progress", "end_time"]

/-- A job without what stands in some members of its entry. -/
def without (job : Job) (names : List String) : Job where
  id := job.id
  spec := {
    name := if "name" ∈ names then "" else job.spec.name
    command := job.spec.command
    arguments := if "arguments" ∈ names then [] else job.spec.arguments
    sweep := if "sweep" ∈ names then "" else job.spec.sweep
    pattern := if "node_pattern" ∈ names then "" else job.spec.pattern
    groups := if "node_groups" ∈ names then [] else job.spec.groups
    nodes := if "specified_nodes" ∈ names then [] else job.spec.nodes }
  state := job.state
  createTime := job.createTime
  endTime := if "end_time" ∈ names then none else job.endTime
  nodes := job.nodes
  failedNodes := if "failed_nodes" ∈ names then ∅ else job.failedNodes
  cancelFailedNodes := if "cancel_failed_nodes" ∈ names then [] else job.cancelFailedNodes
  progress := if "progress" ∈ names then "" else job.progress

/-- What each member of an entry says of a job. -/
structure Reads (field : String → Option Spelled) (job : Job) : Prop where
  id : (field "id").bind Spelled.int32? = some job.id
  name : textOr (field "name") = some job.spec.name
  command : (field "command").bind Spelled.text? = some job.spec.command
  arguments : textsOr (field "arguments") = some job.spec.arguments
  sweep : textOr (field "sweep") = some job.spec.sweep
  pattern : textOr (field "node_pattern") = some job.spec.pattern
  groups : textsOr (field "node_groups") = some job.spec.groups
  specified : textsOr (field "specified_nodes") = some job.spec.nodes
  state : (field "state").bind readState? = some job.state
  createTime : (field "create_time").bind readTime? = some job.createTime
  endTime : readEndTime? (field "end_time") = some job.endTime
  nodes : (field "nodes").bind (Spelled.list? Spelled.text?) = some job.nodes
  failed : codesOr (field "failed_nodes") = some job.failedNodes
  cancelFailed : textsOr (field "cancel_failed_nodes") = some job.cancelFailedNodes
  progress : textOr (field "progress") = some job.progress

theorem reads_of_ofSpelled? {v : Spelled} {field : String → Option Spelled} {job : Job}
    (hfields : v.fields? fieldNames = some (fieldNames.map field)) (h : ofSpelled? v = some job) :
    Reads field job := by
  unfold ofSpelled? at h
  obtain ⟨fields, hfound, h⟩ := Option.bind_eq_some_iff.1 h
  rw [hfields, Option.some.injEq] at hfound
  subst hfound
  -- The fields come in the order in which they are read.
  obtain ⟨_, hid, h⟩ := Option.bind_eq_some_iff.1 h
  obtain ⟨id, hint, h⟩ := Option.bind_eq_some_iff.1 h
  obtain ⟨name, hname, h⟩ := Option.bind_eq_some_iff.1 h
  obtain ⟨_, hcommand, h⟩ := Option.bind_eq_some_iff.1 h
  obtain ⟨command, htext, h⟩ := Option.bind_eq_some_iff.1 h
  obtain ⟨arguments, harguments, h⟩ := Option.bind_eq_some_iff.1 h
  obtain ⟨sweep, hsweep, h⟩ := Option.bind_eq_some_iff.1 h
  obtain ⟨pattern, hpattern, h⟩ := Option.bind_eq_some_iff.1 h
  obtain ⟨groups, hgroups, h⟩ := Option.bind_eq_some_iff.1 h
  obtain ⟨specified, hspecified, h⟩ := Option.bind_eq_some_iff.1 h
  obtain ⟨_, hstate, h⟩ := Option.bind_eq_some_iff.1 h
  obtain ⟨state, hstateName, h⟩ := Option.bind_eq_some_iff.1 h
  obtain ⟨_, hcreated, h⟩ := Option.bind_eq_some_iff.1 h
  obtain ⟨createTime, htime, h⟩ := Option.bind_eq_some_iff.1 h
  obtain ⟨endTime, hend, h⟩ := Option.bind_eq_some_iff.1 h
  obtain ⟨_, hnodes, h⟩ := Option.bind_eq_some_iff.1 h
  obtain ⟨nodes, hlist, h⟩ := Option.bind_eq_some_iff.1 h
  obtain ⟨failed, hfailed, h⟩ := Option.bind_eq_some_iff.1 h
  obtain ⟨cancelFailed, hcancelFailed, h⟩ := Option.bind_eq_some_iff.1 h
  obtain ⟨progress, hprogress, h⟩ := Option.bind_eq_some_iff.1 h
  cases h
  exact {
    id := Option.bind_eq_some_iff.2 ⟨_, hid, hint⟩
    name := hname
    command := Option.bind_eq_some_iff.2 ⟨_, hcommand, htext⟩
    arguments := harguments
    sweep := hsweep
    pattern := hpattern
    groups := hgroups
    specified := hspecified
    state := Option.bind_eq_some_iff.2 ⟨_, hstate, hstateName⟩
    createTime := Option.bind_eq_some_iff.2 ⟨_, hcreated, htime⟩
    endTime := hend
    nodes := Option.bind_eq_some_iff.2 ⟨_, hnodes, hlist⟩
    failed := hfailed
    cancelFailed := hcancelFailed
    progress := hprogress }

theorem ofSpelled?_of_reads {v : Spelled} {field : String → Option Spelled} {job : Job}
    (hfields : v.fields? fieldNames = some (fieldNames.map field)) (h : Reads field job) :
    ofSpelled? v = some job := by
  obtain ⟨_, hid, hint⟩ := Option.bind_eq_some_iff.1 h.id
  obtain ⟨_, hcommand, htext⟩ := Option.bind_eq_some_iff.1 h.command
  obtain ⟨_, hstate, hstateName⟩ := Option.bind_eq_some_iff.1 h.state
  obtain ⟨_, hcreated, htime⟩ := Option.bind_eq_some_iff.1 h.createTime
  obtain ⟨_, hnodes, hlist⟩ := Option.bind_eq_some_iff.1 h.nodes
  unfold ofSpelled?
  refine Option.bind_eq_some_iff.2 ⟨_, hfields, ?_⟩
  refine Option.bind_eq_some_iff.2 ⟨_, hid, ?_⟩
  refine Option.bind_eq_some_iff.2 ⟨_, hint, ?_⟩
  refine Option.bind_eq_some_iff.2 ⟨_, h.name, ?_⟩
  refine Option.bind_eq_some_iff.2 ⟨_, hcommand, ?_⟩
  refine Option.bind_eq_some_iff.2 ⟨_, htext, ?_⟩
  refine Option.bind_eq_some_iff.2 ⟨_, h.arguments, ?_⟩
  refine Option.bind_eq_some_iff.2 ⟨_, h.sweep, ?_⟩
  refine Option.bind_eq_some_iff.2 ⟨_, h.pattern, ?_⟩
  refine Option.bind_eq_some_iff.2 ⟨_, h.groups, ?_⟩
  refine Option.bind_eq_some_iff.2 ⟨_, h.specified, ?_⟩
  refine Option.bind_eq_some_iff.2 ⟨_, hstate, ?_⟩
  refine Option.bind_eq_some_iff.2 ⟨_, hstateName, ?_⟩
  refine Option.bind_eq_some_iff.2 ⟨_, hcreated, ?_⟩
  refine Option.bind_eq_some_iff.2 ⟨_, htime, ?_⟩
  refine Option.bind_eq_some_iff.2 ⟨_, h.endTime, ?_⟩
  refine Option.bind_eq_some_iff.2 ⟨_, hnodes, ?_⟩
  refine Option.bind_eq_some_iff.2 ⟨_, hlist, ?_⟩
  refine Option.bind_eq_some_iff.2 ⟨_, h.failed, ?_⟩
  refine Option.bind_eq_some_iff.2 ⟨_, h.cancelFailed, ?_⟩
  exact Option.bind_eq_some_iff.2 ⟨_, h.progress, rfl⟩

/-- A member that is not there is read as empty. -/
theorem read_lacking {α : Type} {read : Option Spelled → Option α} {v : Option Spelled} {a empty : α} {p : Prop}
    [Decidable p] (hempty : read none = some empty) (h : read v = some a) :
    read (if p then none else v) = some (if p then empty else a) := by
  split
  · exact hempty
  · exact h

/-- Without some members that an entry may lack, it says the same of the rest of the job. -/
theorem Reads.lacking {field : String → Option Spelled} {job : Job} {names : List String} (h : Reads field job)
    (hnames : ∀ name ∈ names, name ∈ optionalNames) :
    Reads (fun name => if name ∈ names then none else field name) (job.without names) := by
  have required {name : String} (hname : name ∉ optionalNames) :
      (if name ∈ names then none else field name) = field name := if_neg fun hmem => hname (hnames name hmem)
  exact {
    id := (congrArg (Option.bind · _) (required (by decide))).trans h.id
    name := read_lacking rfl h.name
    command := (congrArg (Option.bind · _) (required (by decide))).trans h.command
    arguments := read_lacking rfl h.arguments
    sweep := read_lacking rfl h.sweep
    pattern := read_lacking rfl h.pattern
    groups := read_lacking rfl h.groups
    specified := read_lacking rfl h.specified
    state := (congrArg (Option.bind · _) (required (by decide))).trans h.state
    createTime := (congrArg (Option.bind · _) (required (by decide))).trans h.createTime
    endTime := read_lacking rfl h.endTime
    nodes := (congrArg (Option.bind · _) (required (by decide))).trans h.nodes
    failed := read_lacking rfl h.failed
    cancelFailed := read_lacking rfl h.cancelFailed
    progress := read_lacking rfl h.progress }

/-- An entry that lacks members is read as the job without them. -/
theorem ofSpelled?_lacking {members : List (Option String × Spelled)} {job : Job} {names : List String}
    (hnames : ∀ name ∈ names, name ∈ optionalNames) (h : ofSpelled? (.object members) = some job) :
    ofSpelled? ((Spelled.object members).lacking names) = some (job.without names) := by
  obtain ⟨fields, hfields, -⟩ := Option.bind_eq_some_iff.1 h
  obtain ⟨named, rfl, hsingle, rfl⟩ := Spelled.named_of_fields? hfields
  have hreads := reads_of_ofSpelled? hfields h
  exact ofSpelled?_of_reads (Spelled.fields?_lacking hsingle names) (hreads.lacking hnames)

/-- The members of a job's entry. -/
def members (job : Job) : List (Option String × Spelled) :=
  match job.toJson.spelled with
  | .object members => members
  | _ => []

theorem ofSpelled?_members {job : Job} (h : job.Storable) : ofSpelled? (.object job.members) = some job :=
  ofSpelled?_toJson h

end Job

namespace JobDocument

theorem load_save_iff (jobs : List Job) : load (save jobs) = .ok jobs ↔ ∀ job ∈ jobs, job.Storable :=
  ⟨storable_of_load, load_save⟩

/-- A document that lists some entries. -/
def ofEntries (entries : List Spelled) : Stored :=
  .document (.object [(some "jobs", .array entries), (some "version", (Json.whole version).spelled)])

theorem load_ofEntries {entries : List Spelled} {jobs : List Job} (h : entries.mapM Job.ofSpelled? = some jobs) :
    load (ofEntries entries) = .ok jobs := by
  have hfields : (Spelled.object [(some "jobs", .array entries), (some "version", (Json.whole version).spelled)]).fields?
      ["version", "jobs"] = some [some (Json.whole version).spelled, some (.array entries)] := rfl
  have hversion : (Json.whole version).spelled.wholeWithin? 0 (Width.count32 - 1 : Nat) = some (version : Int) := rfl
  simp only [load, ofEntries, ofSpelled?, hfields, bind, Option.bind_some, hversion, Spelled.list?, h]
  rfl

/-- An entry of a document, the job that it is read as, and members that it may lack. -/
structure Entry where
  members : List (Option String × Spelled)
  job : Job
  read : Job.ofSpelled? (.object members) = some job
  gone : List String
  optional : ∀ name ∈ gone, name ∈ Job.optionalNames

namespace Entry

/-- The entry that is written for a job. -/
def ofJob (job : Job) (h : job.Storable) (gone : List String) (hgone : ∀ name ∈ gone, name ∈ Job.optionalNames) :
    Entry := ⟨job.members, job, Job.ofSpelled?_members h, gone, hgone⟩

/-- The entry without the members that it may lack. -/
def rest (e : Entry) : Spelled := (Spelled.object e.members).lacking e.gone

end Entry

theorem load_rest (entries : List Entry) :
    load (ofEntries (entries.map Entry.rest)) = .ok (entries.map fun e => e.job.without e.gone) := by
  refine load_ofEntries ?_
  rw [List.mapM_map]
  exact mapM_some fun e _ => Job.ofSpelled?_lacking e.optional e.read

end JobDocument

namespace Store

/-- An edit of the list that makes jobs which their document keeps, of such jobs. -/
def Retains (edit : List Job → List Job) : Prop :=
  ∀ jobs, (∀ job ∈ jobs, job.Storable) → ∀ job ∈ edit jobs, job.Storable

/-- Every operation is such an edit, unless it gives an id to a new job. -/
theorem retains_relist (now : Moment) {op : Operation} (hop : op.Fits) (hcreate : op.isCreate = false) :
    Retains fun jobs => relist now.1 jobs op := by
  intro jobs h
  refine storable_relist h now.2 hop ?_
  rintro spec nodes capacity kept evicted rfl
  cases hcreate

/-- The list is read, edited and written, once for each edit. -/
def editAll (store : Store) (edits : List (List Job → List Job)) : Store :=
  edits.foldl (fun store edit => (store.withJobs fun jobs => (edit jobs, ())).1) store

theorem jobs_editAll {store : Store} {jobs : List Job} {edits : List (List Job → List Job)}
    (hread : store.jobs = .ok jobs) (hedits : ∀ edit ∈ edits, Retains edit) :
    (store.editAll edits).jobs = .ok (edits.foldl (fun jobs edit => edit jobs) jobs) := by
  induction edits generalizing store jobs with
  | nil => exact hread
  | cons edit rest ih =>
    simp only [List.mem_cons, forall_eq_or_imp] at hedits
    refine ih ?_ hedits.2
    simp only [withJobs_eq hread]
    exact JobDocument.load_save (hedits.1 jobs (JobDocument.storable_of_load hread))

end Store

namespace JobDocument

/-- What a document keeps of its jobs: all of them, as long as they are of the program's types; through any number of
edits, what these make of the list; and of entries that lack members, all the others. -/
theorem retained_by_document :
    (∀ jobs : List Job, load (save jobs) = .ok jobs ↔ ∀ job ∈ jobs, job.Storable) ∧
      (∀ (store : Store) (jobs : List Job) (edits : List (List Job → List Job)), store.jobs = .ok jobs →
        (∀ edit ∈ edits, Store.Retains edit) →
          (store.editAll edits).jobs = .ok (edits.foldl (fun jobs edit => edit jobs) jobs)) ∧
      ∀ entries : List Entry,
        load (ofEntries (entries.map Entry.rest)) = .ok (entries.map fun e => e.job.without e.gone) :=
  ⟨load_save_iff, fun _ _ _ => Store.jobs_editAll, load_rest⟩

/-- A job of which every member is filled, and that ended within a leap second. -/
def filled : Job where
  id := -3
  spec := {
    name := "n", command := "c", arguments := ["", "x"], sweep := "x\x7b1-2\x7d", pattern := "p", groups := ["g"]
    nodes := ["N1"] }
  state := .running
  createTime := ⟨0, 5⟩
  endTime := some ⟨59, 1999999999⟩
  nodes := ["N1", "N2"]
  failedNodes := SortedMap.ofList [("N2", 2147483647), ("N1", -1)]
  cancelFailedNodes := ["N2"]
  progress := "half"

theorem storable_filled : filled.Storable :=
  ⟨⟨⟨by decide, by decide, by decide⟩, by
    rintro _ ⟨⟩
    exact ⟨by decide, by decide, by decide⟩⟩, by decide, by decide +kernel⟩

/-- The job is cancelled, and its nodes end later. -/
def edits : List (List Job → List Job) :=
  [fun jobs => Store.relist Dispatch.epoch.1 jobs (.plan ∅),
    fun jobs => Store.relist Dispatch.epoch.1 jobs (.finish (-3) (SortedMap.ofList [("N1", 4), ("N3", 5)]))]

theorem retained_of_filled :
    load (save [filled]) = .ok [filled] ∧
      (({ file := save [filled], output := ∅ } : Store).editAll edits).jobs =
        .ok [{ filled with
          state := .canceling
          failedNodes := SortedMap.ofList [("N1", -1), ("N2", 2147483647), ("N3", 5)] }] ∧
      load (ofEntries [(Entry.ofJob filled storable_filled Job.optionalNames (by simp)).rest]) =
        .ok [{ filled with
          spec := { command := "c" }
          endTime := none
          failedNodes := ∅
          cancelFailedNodes := []
          progress := "" }] := by
  have hload : load (save [filled]) = .ok [filled] :=
    (retained_by_document.1 [filled]).2 (by simpa using storable_filled)
  have hedits : ∀ edit ∈ edits, Store.Retains edit := by
    simp only [edits, List.mem_cons, forall_eq_or_imp, List.not_mem_nil, false_imp_iff, implies_true, and_true]
    refine ⟨Store.retains_relist _ trivial rfl, Store.retains_relist _ ?_ rfl⟩
    show ∀ e ∈ (SortedMap.ofList [("N1", 4), ("N3", 5)] : SortedMap String Int).toList, Fits32 e.2
    decide +kernel
  refine ⟨hload, ?_, ?_⟩
  · refine (retained_by_document.2.1 ⟨save [filled], ∅⟩ [filled] edits hload hedits).trans (congrArg Except.ok ?_)
    decide +kernel
  · exact retained_by_document.2.2 [Entry.ofJob filled storable_filled Job.optionalNames (by simp)]

end JobDocument

end Muster
