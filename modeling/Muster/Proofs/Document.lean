import Muster.Job.Document
import Muster.Proofs.Sorted
import Muster.Proofs.TimeText

/-!
# The document of jobs reads back

A list of jobs reads back from its document if its numbers fit 32 bits and its times have texts. Whatever is
read from a document is such a list.
-/

namespace Muster

open Json (Spelled Stored)

/-! ### Lists with a reading for each item -/

theorem mapM_some {α β : Type} {f : α → Option β} {g : α → β} {l : List α}
    (h : ∀ a ∈ l, f a = some (g a)) : l.mapM f = some (l.map g) := by
  induction l with
  | nil => rfl
  | cons a rest ih =>
    rw [List.mapM_cons, h a (by simp), ih fun b hb => h b (List.mem_cons_of_mem _ hb)]
    rfl

theorem exists_of_mapM {α β : Type} {f : α → Option β} {l : List α} {m : List β}
    (h : l.mapM f = some m) : ∀ b ∈ m, ∃ a ∈ l, f a = some b := by
  induction l generalizing m with
  | nil =>
    cases h
    simp
  | cons a rest ih =>
    simp only [List.mapM_cons, bind, Option.bind_eq_some_iff] at h
    obtain ⟨b, hb, m', hm, heq⟩ := h
    cases heq
    intro c hc
    rcases List.mem_cons.1 hc with rfl | hc
    · exact ⟨a, by simp, hb⟩
    · obtain ⟨d, hd, hdc⟩ := ih hm c hc
      exact ⟨d, List.mem_cons_of_mem _ hd, hdc⟩

theorem exists_of_mapM_mem {α β : Type} {f : α → Option β} {l : List α} {m : List β}
    (h : l.mapM f = some m) : ∀ a ∈ l, ∃ b ∈ m, f a = some b := by
  induction l generalizing m with
  | nil => simp
  | cons a rest ih =>
    simp only [List.mapM_cons, bind, Option.bind_eq_some_iff] at h
    obtain ⟨b, hb, m', hm, heq⟩ := h
    cases heq
    intro c hc
    rcases List.mem_cons.1 hc with rfl | hc
    · exact ⟨b, by simp, hb⟩
    · obtain ⟨d, hd, hcd⟩ := ih hm c hc
      exact ⟨d, List.mem_cons_of_mem _ hd, hcd⟩

namespace Json

@[simp] theorem spelledItems_eq (l : List Json) : spelledItems l = l.map spelled := by
  induction l with
  | nil => rfl
  | cons v rest ih => rw [spelledItems, ih]; rfl

@[simp] theorem spelledMembers_eq (l : Members) :
    spelledMembers l = l.map fun e => (some e.1, e.2.spelled) := by
  induction l with
  | nil => rfl
  | cons e rest ih => rw [spelledMembers, ih]; rfl

@[simp] theorem list?_strings (l : List String) : (strings l).spelled.list? Spelled.text? = some l := by
  simp only [strings, spelled, spelledItems_eq, Spelled.list?, List.map_map]
  rw [List.mapM_map]
  exact (mapM_some fun s _ => rfl).trans (by rw [List.map_id'])

end Json

/-- A number that fits in 32 bits with sign. -/
def Fits32 (n : Int) : Prop := Width.least32 ≤ n ∧ n ≤ Width.greatest32

instance (n : Int) : Decidable (Fits32 n) := inferInstanceAs (Decidable (_ ∧ _))

namespace Json

theorem int32?_whole (n : Int) : (whole n).spelled.int32? = if Fits32 n then some n else none := rfl

theorem fits32_of_int32? {v : Spelled} {n : Int} (h : v.int32? = some n) : Fits32 n := by
  unfold Spelled.int32? Spelled.wholeWithin? at h
  split at h
  · split at h
    · rename_i hfits
      cases h
      exact hfits
    · cases h
  · cases h

end Json

namespace Job

/-- A job whose times have texts. -/
structure Timed (job : Job) : Prop where
  created : job.createTime.IsValid
  ended : ∀ t ∈ job.endTime, t.IsValid

/-- A job that its document keeps. -/
structure Storable (job : Job) : Prop extends Timed job where
  id : Fits32 job.id
  codes : ∀ e ∈ job.failedNodes.toList, Fits32 e.2

theorem readTime?_text {t : Time} (h : t.IsValid) : readTime? (.string (some t.text)) = some t := by
  rw [readTime?, Spelled.text?, Option.bind_some]
  exact Time.parse?_text h

theorem isValid_of_readTime? {v : Spelled} {t : Time} (h : readTime? v = some t) : t.IsValid := by
  obtain ⟨text, -, ht⟩ := Option.bind_eq_some_iff.1 h
  exact Time.parse?_isValid ht

theorem readState?_text (state : JobState) : readState? (.string (some state.text)) = some state :=
  JobState.ofText?_text state

/-- The document of an end time. -/
def endTimeJson (endTime : Option Time) : Json :=
  match endTime with
  | some t => .string t.text
  | none => .null

theorem readEndTime?_endTimeJson {endTime : Option Time} (h : ∀ t ∈ endTime, t.IsValid) :
    readEndTime? (some (endTimeJson endTime).spelled) = some endTime := by
  cases endTime with
  | none => rfl
  | some t =>
    have ht := readTime?_text (h t rfl)
    change (readTime? (.string (some t.text))).map some = some (some t)
    rw [ht]
    rfl

theorem isValid_of_readEndTime? {v : Option Spelled} {endTime : Option Time}
    (h : readEndTime? v = some endTime) : ∀ t ∈ endTime, t.IsValid := by
  unfold readEndTime? at h
  split at h
  · cases h
    simp
  · cases h
    simp
  · obtain ⟨t, ht, rfl⟩ := Option.map_eq_some_iff.1 h
    rintro _ ⟨⟩
    exact isValid_of_readTime? ht

/-- The document of the codes of failed nodes. -/
def codesJson (codes : SortedMap String Int) : Json :=
  .object (codes.toList.map fun (node, code) => (node, Json.whole code))

theorem codesOr_codesJson {codes : SortedMap String Int} (h : ∀ e ∈ codes.toList, Fits32 e.2) :
    codesOr (some (codesJson codes).spelled) = some codes := by
  simp only [codesOr, codesJson, Json.spelled, Json.spelledMembers_eq, Spelled.map?, List.mapM_map]
  refine Option.bind_eq_some_iff.2 ⟨codes.toList, ?_, congrArg some codes.ofList_toList⟩
  refine (mapM_some (g := fun e => e) ?_).trans (by rw [List.map_id'])
  intro e he
  have hread := Json.int32?_whole e.2
  rw [if_pos (h e he)] at hread
  simp [hread]

/-- Codes that can be read at all fit 32 bits, both where they are written and where they are read. -/
theorem fits32_of_codesJson {codes found : SortedMap String Int}
    (h : codesOr (some (codesJson codes).spelled) = some found) :
    ∀ e ∈ codes.toList, Fits32 e.2 := by
  simp only [codesOr, codesJson, Json.spelled, Json.spelledMembers_eq, Spelled.map?, List.mapM_map,
    bind, Option.bind_eq_some_iff] at h
  obtain ⟨l, hl, -⟩ := h
  intro e he
  obtain ⟨d, -, hd⟩ := exists_of_mapM_mem hl e he
  simp only [Function.comp_apply, Option.bind_eq_some_iff, Json.int32?_whole] at hd
  obtain ⟨-, -, code, hcode, -⟩ := hd
  split at hcode
  · assumption
  · cases hcode

theorem fits32_of_codesOr {v : Option Spelled} {codes : SortedMap String Int}
    (h : codesOr v = some codes) : ∀ e ∈ codes.toList, Fits32 e.2 := by
  unfold codesOr at h
  split at h
  · cases h
    simp
  · unfold Spelled.map? at h
    split at h
    · simp only [bind, Option.bind_eq_some_iff] at h
      obtain ⟨l, hl, heq⟩ := h
      cases heq
      intro e he
      obtain ⟨m, -, hm⟩ := exists_of_mapM hl e (SortedMap.mem_of_mem_ofList he)
      simp only [Option.bind_eq_some_iff] at hm
      obtain ⟨node, -, code, hcode, heq⟩ := hm
      cases heq
      exact Json.fits32_of_int32? hcode
    · cases h

/-- The fields of a job's document, in the order of their names. -/
theorem fields?_toJson (job : Job) :
    job.toJson.spelled.fields? fieldNames = some [
      some (Json.whole job.id).spelled, some (.string (some job.spec.name)),
      some (.string (some job.spec.command)), some (Json.strings job.spec.arguments).spelled,
      some (.string (some job.spec.sweep)), some (.string (some job.state.text)),
      some (.string (some job.createTime.text)), some (endTimeJson job.endTime).spelled,
      some (.string (some job.spec.pattern)), some (Json.strings job.spec.groups).spelled,
      some (Json.strings job.spec.nodes).spelled, some (Json.strings job.nodes).spelled,
      some (codesJson job.failedNodes).spelled, some (Json.strings job.cancelFailedNodes).spelled,
      some (.string (some job.progress))] := by
  rfl

/-- A job reads back from its document. -/
theorem ofSpelled?_toJson {job : Job} (h : job.Storable) : ofSpelled? job.toJson.spelled = some job := by
  have hid := Json.int32?_whole job.id
  rw [if_pos h.id] at hid
  unfold ofSpelled?
  refine Option.bind_eq_some_iff.2 ⟨_, fields?_toJson job, ?_⟩
  -- The fields come in the order in which they are read.
  refine Option.bind_eq_some_iff.2 ⟨_, rfl, ?_⟩
  refine Option.bind_eq_some_iff.2 ⟨_, hid, ?_⟩
  refine Option.bind_eq_some_iff.2 ⟨job.spec.name, rfl, ?_⟩
  refine Option.bind_eq_some_iff.2 ⟨_, rfl, ?_⟩
  refine Option.bind_eq_some_iff.2 ⟨job.spec.command, rfl, ?_⟩
  refine Option.bind_eq_some_iff.2 ⟨_, Json.list?_strings job.spec.arguments, ?_⟩
  refine Option.bind_eq_some_iff.2 ⟨job.spec.sweep, rfl, ?_⟩
  refine Option.bind_eq_some_iff.2 ⟨job.spec.pattern, rfl, ?_⟩
  refine Option.bind_eq_some_iff.2 ⟨_, Json.list?_strings job.spec.groups, ?_⟩
  refine Option.bind_eq_some_iff.2 ⟨_, Json.list?_strings job.spec.nodes, ?_⟩
  refine Option.bind_eq_some_iff.2 ⟨_, rfl, ?_⟩
  refine Option.bind_eq_some_iff.2 ⟨_, readState?_text job.state, ?_⟩
  refine Option.bind_eq_some_iff.2 ⟨_, rfl, ?_⟩
  refine Option.bind_eq_some_iff.2 ⟨_, readTime?_text h.created, ?_⟩
  refine Option.bind_eq_some_iff.2 ⟨_, readEndTime?_endTimeJson h.ended, ?_⟩
  refine Option.bind_eq_some_iff.2 ⟨_, rfl, ?_⟩
  refine Option.bind_eq_some_iff.2 ⟨_, Json.list?_strings job.nodes, ?_⟩
  refine Option.bind_eq_some_iff.2 ⟨_, codesOr_codesJson h.codes, ?_⟩
  refine Option.bind_eq_some_iff.2 ⟨_, Json.list?_strings job.cancelFailedNodes, ?_⟩
  exact Option.bind_eq_some_iff.2 ⟨job.progress, rfl, rfl⟩

/-- The fields of which not every value that is read can be kept. -/
structure Read (id createTime : Spelled) (endTime failed : Option Spelled) (job : Job) : Prop where
  id : id.int32? = some job.id
  createTime : readTime? createTime = some job.createTime
  endTime : readEndTime? endTime = some job.endTime
  failed : codesOr failed = some job.failedNodes

/-- What a job is read from. -/
theorem read_of_ofSpelled? {v : Spelled} {job : Job} (h : ofSpelled? v = some job) :
    ∃ id createTime endTime failed fields, v.fields? fieldNames = some fields ∧ fields[0]? = some (some id) ∧
      fields[6]? = some (some createTime) ∧ fields[7]? = some endTime ∧ fields[12]? = some failed ∧
      Read id createTime endTime failed job := by
  unfold ofSpelled? at h
  obtain ⟨fields, hfields, h⟩ := Option.bind_eq_some_iff.1 h
  split at h
  · obtain ⟨_, hid, h⟩ := Option.bind_eq_some_iff.1 h
    obtain ⟨id, hint, h⟩ := Option.bind_eq_some_iff.1 h
    obtain ⟨name, -, h⟩ := Option.bind_eq_some_iff.1 h
    obtain ⟨_, -, h⟩ := Option.bind_eq_some_iff.1 h
    obtain ⟨command, -, h⟩ := Option.bind_eq_some_iff.1 h
    obtain ⟨arguments, -, h⟩ := Option.bind_eq_some_iff.1 h
    obtain ⟨sweep, -, h⟩ := Option.bind_eq_some_iff.1 h
    obtain ⟨pattern, -, h⟩ := Option.bind_eq_some_iff.1 h
    obtain ⟨groups, -, h⟩ := Option.bind_eq_some_iff.1 h
    obtain ⟨specified, -, h⟩ := Option.bind_eq_some_iff.1 h
    obtain ⟨_, -, h⟩ := Option.bind_eq_some_iff.1 h
    obtain ⟨state, -, h⟩ := Option.bind_eq_some_iff.1 h
    obtain ⟨_, hcreated, h⟩ := Option.bind_eq_some_iff.1 h
    obtain ⟨createTime, hcreate, h⟩ := Option.bind_eq_some_iff.1 h
    obtain ⟨endTime, hend, h⟩ := Option.bind_eq_some_iff.1 h
    obtain ⟨_, -, h⟩ := Option.bind_eq_some_iff.1 h
    obtain ⟨nodes, -, h⟩ := Option.bind_eq_some_iff.1 h
    obtain ⟨failed, hfailed, h⟩ := Option.bind_eq_some_iff.1 h
    obtain ⟨cancelFailed, -, h⟩ := Option.bind_eq_some_iff.1 h
    obtain ⟨progress, -, h⟩ := Option.bind_eq_some_iff.1 h
    cases h
    exact ⟨_, _, _, _, _, hfields, congrArg some hid, congrArg some hcreated, rfl, rfl,
      ⟨hint, hcreate, hend, hfailed⟩⟩
  · cases h

/-- A document that can be read keeps a job with such times as it is. -/
theorem storable_of_toJson {job found : Job} (h : job.Timed)
    (hread : ofSpelled? job.toJson.spelled = some found) : job.Storable := by
  obtain ⟨id, _, _, failed, fields, hfields, hid, -, -, hfailed, hfound⟩ := read_of_ofSpelled? hread
  rw [fields?_toJson, Option.some.injEq] at hfields
  subst hfields
  cases hid
  cases hfailed
  have hint := hfound.id
  rw [Json.int32?_whole] at hint
  refine ⟨h, ?_, fits32_of_codesJson hfound.failed⟩
  split at hint
  · assumption
  · cases hint

/-- Whatever is read is a job that its document keeps. -/
theorem storable_of_ofSpelled? {v : Spelled} {job : Job} (h : ofSpelled? v = some job) :
    job.Storable := by
  obtain ⟨_, _, _, _, _, -, -, -, -, -, hread⟩ := read_of_ofSpelled? h
  exact ⟨⟨isValid_of_readTime? hread.createTime, isValid_of_readEndTime? hread.endTime⟩,
    Json.fits32_of_int32? hread.id, fits32_of_codesOr hread.failed⟩

end Job

namespace JobDocument

theorem ofSpelled?_toJson (jobs : List Job) :
    ofSpelled? (toJson jobs).spelled =
      (jobs.mapM fun job => Job.ofSpelled? job.toJson.spelled).map fun jobs => (version, jobs) := by
  have hfields : (toJson jobs).spelled.fields? ["version", "jobs"] =
      some [some (Json.whole version).spelled, some (Json.array (jobs.map Job.toJson)).spelled] := rfl
  have hversion : (Json.whole version).spelled.wholeWithin? 0 (Width.count32 - 1 : Nat) =
      some (version : Int) := rfl
  simp only [ofSpelled?, hfields, bind, Option.bind_some, hversion, Json.spelled, Json.spelledItems_eq,
    Spelled.list?, List.mapM_map]
  rw [Option.map_eq_bind]
  rfl

/-- Jobs read back from their document. -/
theorem load_save {jobs : List Job} (h : ∀ job ∈ jobs, job.Storable) : load (save jobs) = .ok jobs := by
  have hread : jobs.mapM (fun job => Job.ofSpelled? job.toJson.spelled) = some jobs :=
    (mapM_some fun job hj => Job.ofSpelled?_toJson (h job hj)).trans (by rw [List.map_id'])
  simp [load, save, Stored.ofValue, ofSpelled?_toJson, hread]

/-- Whatever is read are jobs that a document keeps. -/
theorem storable_of_load {file : Stored} {jobs : List Job} (h : load file = .ok jobs) :
    ∀ job ∈ jobs, job.Storable := by
  unfold load at h
  split at h
  · cases h
  · cases h
  · cases h
  · split at h
    · cases h
    · rename_i spelled found listed hread
      split at h
      · cases h
        simp only [ofSpelled?, bind, Option.bind_eq_some_iff] at hread
        obtain ⟨fields, -, hread⟩ := hread
        split at hread
        · simp only [Option.bind_eq_some_iff] at hread
          obtain ⟨_, -, version, -, list, -, listed, hlist, heq⟩ := hread
          cases heq
          unfold Spelled.list? at hlist
          split at hlist
          · intro job hj
            obtain ⟨v, -, hv⟩ := exists_of_mapM hlist job hj
            exact Job.storable_of_ofSpelled? hv
          · cases hlist
        · cases hread
      · cases h

/-- A document that can be read keeps jobs with such times as they are. -/
theorem storable_of_load_save {jobs found : List Job} (h : ∀ job ∈ jobs, job.Timed)
    (hload : load (save jobs) = .ok found) : ∀ job ∈ jobs, job.Storable := by
  intro job hj
  simp only [load, save, Stored.ofValue, ofSpelled?_toJson] at hload
  split at hload
  · cases hload
  · rename_i hread
    obtain ⟨listed, hlisted, -⟩ := Option.map_eq_some_iff.1 hread
    obtain ⟨kept, -, hkept⟩ := exists_of_mapM_mem hlisted job hj
    exact Job.storable_of_toJson (h job hj) hkept

end JobDocument

end Muster
