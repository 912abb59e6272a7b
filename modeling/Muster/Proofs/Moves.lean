import Muster.Proofs.Turns

/-!
# Everything that can happen to a job

An event of a head node is a turn of the job, or drives it out of the list, or is a step of a cancellation
that marks or settles it.
-/

namespace Muster.Dispatch

open Store (withId newestId markCanceling changeFirst cancelEnded marks)

/-- A cancellation plans to cancel the job. -/
def Plans (id : Int) (d : Dispatch) (e : Moment × Event) : Prop :=
  ∃ ids plan, e.2 = .cancel ids ∧ (d.store.planCancel ids).2 = .ok plan ∧ plan.contains id

/-- A cancellation settles the job, where some nodes have refused. -/
def Settles (id : Int) (d : Dispatch) (e : Moment × Event) (refused : List String) : Prop :=
  ∃ call c, e.2 = .cancelEnded call id ∧ d.cancels[call]? = some c ∧
    ∃ j ∈ c.jobs, j.id = id ∧ j.waiting = [] ∧ j.failed = refused

/-- The ways in which an event changes what there is of a job, where `planned` says whether a cancellation
plans for it, and `settles` with which refusals one settles it. -/
inductive Move (now : Time) (planned : Prop) (settles : List String → Prop) : Part → Part → Prop
  | turned {p p' : Part} (h : Turn now p p') (hplanned : ¬ planned) : Move now planned settles p p'
  | evicted {p : Part} (hidle : ∃ job ∈ p.listed, job.state.isActive = false) (hplanned : ¬ planned) :
      Move now planned settles p { p with listed := [] }
  | marked {p : Part} (ids : JobIds) (jobs : List Job)
      (hplanned : planned ↔ ∃ job ∈ p.listed, marks ids jobs job) :
      Move now planned settles p { p with listed := p.listed.map (Store.mark ids jobs) }
  | settled {p : Part} (refused : List String) (hsettles : settles refused) (hplanned : ¬ planned) :
      Move now planned settles p { p with listed := p.listed.map (cancelEnded refused now) }

/-- A turn of a job takes it out of no list. -/
theorem Turn.listed_eq_nil {p p' : Part} {now : Time} (h : Turn now p p') (hnil : p'.listed = []) :
    p.listed = [] := by
  cases h with
  | stayed | left | dropped | answered | relayed | exited | lost => exact hnil
  | begun | finished => cases hnil
  | launched => exact List.map_eq_nil_iff.1 hnil

theorem Move.listed_ne_nil {planned : Prop} {settles : List String → Prop} {p p' : Part} {now : Time}
    (h : Move now planned settles p p') (hlisted : p'.listed ≠ []) : p.listed ≠ [] := by
  have hmap {f : Job → Job} (hne : p.listed.map f ≠ []) : p.listed ≠ [] := fun hnil => hne (by simp [hnil])
  cases h with
  | turned ht =>
    cases ht with
    | stayed | left | dropped | answered | relayed | exited => exact hlisted
    | begun _ _ hl | finished _ _ _ hl => simp [hl]
    | launched => exact hmap hlisted
    | lost _ _ _ hl => exact absurd hl hlisted
  | evicted => exact absurd rfl hlisted
  | marked | settled => exact hmap hlisted

section

variable {id : Int} {d : Dispatch} {jobs : List Job}

theorem not_plans {e : Moment × Event} (he : ∀ ids, e.2 ≠ .cancel ids) : ¬ Plans id d e := by
  rintro ⟨ids, plan, heq, -⟩
  exact he ids heq

theorem plans_iff (h : d.store.jobs = .ok jobs) (now : Moment) (ids : JobIds) :
    Plans id d (now, .cancel ids) ↔ ∃ job ∈ withId id jobs, marks ids jobs job := by
  rw [← Store.contains_plan]
  constructor
  · rintro ⟨_, plan, heq, hplan, hid⟩
    cases heq
    rw [Store.planCancel_eq h, Except.ok.injEq] at hplan
    rw [hplan]
    exact hid
  · intro hid
    exact ⟨ids, _, rfl, by rw [Store.planCancel_eq h], hid⟩

theorem changeFirst_withId (hone : (withId id jobs).length ≤ 1) (f : Job → Job) :
    changeFirst id f (withId id jobs) = (withId id jobs).map f := by
  rcases nil_or_singleton hone with hlisted | ⟨job, hlisted⟩
  · rw [hlisted]
    rfl
  · have hid : job.id = id := (Store.mem_withId.1 (hlisted ▸ List.mem_singleton_self job)).2
    rw [hlisted, changeFirst, if_pos hid]
    rfl

/-- Every event is a move of the job. -/
theorem move_step (h : d.store.jobs = .ok jobs) (hone : (withId id jobs).length ≤ 1)
    (hknown : id ≤ newestId jobs) (e : Moment × Event) :
    Move e.1.1 (Plans id d e) (Settles id d e) (part id d jobs)
      (part id (d.stepAt e) (d.relist e.1.1 jobs e.2)) := by
  obtain ⟨now, e⟩ := e
  have hmoved {p' : Part} (hpart : part id (step now.1 d e) (d.relist now.1 jobs e) = p')
      (hmove : Move now.1 (Plans id d (now, e)) (Settles id d (now, e)) (part id d jobs) p') :
      Move now.1 (Plans id d (now, e)) (Settles id d (now, e)) (part id d jobs)
        (part id (step now.1 d e) (d.relist now.1 jobs e)) := by
    rw [hpart]
    exact hmove
  cases he : e.job? with
  | some other =>
    have hplanned : ¬ Plans id d (now, e) := not_plans (by rintro ids rfl; cases he)
    by_cases hne : other = id
    · rw [hne] at he
      exact .turned (turn_step h hone now.1 he) hplanned
    · exact hmoved (part_step_of_ne now.1 he hne) (.turned (.stayed _) hplanned)
  | none =>
    cases e <;> simp only [Event.job?, reduceCtorEq] at he
    case submit spec nodes capacity keepsOutput =>
      have hplanned : ¬ Plans id d (now, .submit spec nodes capacity keepsOutput) := not_plans (by simp)
      rcases part_submit h hknown now.1 spec nodes capacity keepsOutput with hpart | ⟨hidle, hpart⟩
      · exact hmoved hpart (.turned (.stayed _) hplanned)
      · exact hmoved hpart (.evicted hidle hplanned)
    case cancel ids => exact hmoved (part_cancel h now.1 ids) (.marked ids jobs (plans_iff h now ids))
    case cancelAnswered call other node accepted =>
      exact hmoved (part_cancelAnswered d jobs now.1 call other node accepted)
        (.turned (.stayed _) (not_plans (by simp)))
    case cancelEnded call other =>
      have hplanned : ¬ Plans id d (now, .cancelEnded call other) := not_plans (by simp)
      rcases step_cancelEnded d jobs now.1 call other with
        ⟨hstep, hlist⟩ | ⟨c, j, hc, hj, hid, hw, hstep, hlist⟩
      · exact hmoved (by rw [hstep, hlist]) (.turned (.stayed _) hplanned)
      · by_cases hne : j.id = id
        · subst hne
          refine hmoved ?_ (.settled j.failed ⟨call, c, by rw [hid], hc, j, hj, rfl, hw, rfl⟩ hplanned)
          rw [hstep, hlist, part_settle_self, changeFirst_withId hone]
          rfl
        · refine hmoved ?_ (.turned (.stayed _) hplanned)
          rw [hstep, hlist, part_settle_of_ne d jobs call c hne]

end

end Muster.Dispatch
