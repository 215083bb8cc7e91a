import Pezkuwi.Perwerde.Model

/-!
# Perwerde: who can raise a student's score

The pallet's documentation says that only course owners mark completions. The code lets the
student do it: `complete_course` is signed by the student, looks up the signer's own
enrollment, and writes the points the signer passes. Enrolling never changes a score
(`getPerwerdeScore_enroll`), but completing one's own enrollment raises one's score by any
amount (`getPerwerdeScore_completeCourse`): in every reachable state, a student with an
uncompleted enrollment awards themselves any points (`completeCourse_self_awards`), with no
admin involved. That is the only way a score moves: along any call, whoever signs it, an
account's score grows by the points the call awards it (`awardedTo`), which are those of a
completion it signs itself, and by nothing otherwise (`getPerwerdeScore_step`).

The score is a sum over `StudentCourses`, which lists each enrolled course once (`CoursesInv`),
so completing a course adds its points exactly once; and so the score, which walks that list, is
the sum over the enrollments themselves of the points of the completed ones
(`getPerwerdeScore_eq_completedPoints`).

## Main definitions

* `CoursesInv`: `StudentCourses(who)` lists the courses `who` enrolled in, each once
* `awardedTo`: the points a call awards to an account, through its own completion only
* `Enrollment.completedPoints`: the points an enrollment counts for

## Main results

* `getPerwerdeScore_step`: along any call, a score changes only by the points `awardedTo` it
* `getPerwerdeScore_enroll`: enrolling changes no score
* `getPerwerdeScore_completeCourse`: completing a course adds its points to the student's score
* `completeCourse_self_awards`: a student raises their own score by any amount
* `getPerwerdeScore_eq_completedPoints`: on every run the score is the `u32` sum of the points of
  the completed enrollments
* `perwerde_score_wraps`: a second completed course wraps the score from `u32::MAX` to zero
-/

namespace Perwerde

open Bounded Machine

variable {α : Type} [LinearOrder α] {cfg : Config α} {s s' : State α}

/-! ## What a successful call does -/

theorem enroll_ok {student : α} {courseId : Nat} (h : enroll cfg s student courseId = .ok s') :
    ∃ course : Course α, s.courses.get? courseId = some course ∧ course.status = .active ∧
      (s.enrollments student).get? courseId = none ∧
      (s.studentCourses student).length < cfg.maxStudentsPerCourse ∧
      s' = { s with
        enrollments := Function.update s.enrollments student
          ((s.enrollments student).insert courseId ⟨student, courseId, s.blockNumber, none, 0⟩)
        studentCourses := Function.update s.studentCourses student
          (s.studentCourses student ++ [courseId]) } := by
  simp only [enroll, bind_eq_ok, okOr_eq_ok, ensure_eq_ok, pure_eq_ok] at h
  obtain ⟨course, hcourse, -, hactive, -, hnone, -, hlen, rfl⟩ := h
  exact ⟨course, hcourse, hactive, hnone, hlen, rfl⟩

theorem completeCourse_ok {student : α} {courseId points : Nat}
    (h : completeCourse s student courseId points = .ok s') :
    ∃ e : Enrollment α, (s.enrollments student).get? courseId = some e ∧ e.completedAt = none ∧
      s' = { s with
        enrollments := Function.update s.enrollments student
          ((s.enrollments student).insert courseId
            { e with completedAt := some s.blockNumber, pointsEarned := points }) } := by
  simp only [completeCourse, bind_eq_ok, okOr_eq_ok, ensure_eq_ok, pure_eq_ok] at h
  obtain ⟨e, he, -, hc, rfl⟩ := h
  exact ⟨e, he, hc, rfl⟩

/-- The student's own uncompleted enrollment is all `complete_course` asks for. -/
theorem completeCourse_of_enrolled {student : α} {courseId : Nat} {e : Enrollment α}
    (he : (s.enrollments student).get? courseId = some e) (hc : e.completedAt = none)
    (points : Nat) :
    completeCourse s student courseId points = .ok { s with
      enrollments := Function.update s.enrollments student
        ((s.enrollments student).insert courseId
          { e with completedAt := some s.blockNumber, pointsEarned := points }) } := by
  simp [completeCourse, he, hc, okOr, ensure, bind, Except.bind, pure, Except.pure]

/-- The admin calls write only the courses. -/
theorem createCourse_ok {origin : α} (h : createCourse cfg s origin = .ok s') :
    s'.enrollments = s.enrollments ∧ s'.studentCourses = s.studentCourses := by
  simp only [createCourse, bind_eq_ok, ensure_eq_ok, pure_eq_ok] at h
  obtain ⟨-, -, rfl⟩ := h
  exact ⟨rfl, rfl⟩

theorem archiveCourse_ok {caller : α} {courseId : Nat}
    (h : archiveCourse cfg s caller courseId = .ok s') :
    s'.enrollments = s.enrollments ∧ s'.studentCourses = s.studentCourses := by
  simp only [archiveCourse, bind_eq_ok, ensure_eq_ok, okOr_eq_ok, pure_eq_ok] at h
  obtain ⟨-, -, course, -, -, -, rfl⟩ := h
  exact ⟨rfl, rfl⟩

/-! ## The courses of a student -/

/-- `StudentCourses(who)` lists the courses `who` enrolled in, each once. -/
structure CoursesInv (s : State α) : Prop where
  nodup : ∀ who, (s.studentCourses who).Nodup
  mem_iff : ∀ who c, c ∈ s.studentCourses who ↔ (s.enrollments who).get? c ≠ none

theorem coursesInv_genesis : CoursesInv (genesis : State α) where
  nodup _ := List.nodup_nil
  mem_iff _ _ := by simp [genesis]

/-- A write that keeps the enrollment of every listed course keeps `CoursesInv`. -/
theorem CoursesInv.of_frame (hi : CoursesInv s)
    (hcourses : s'.studentCourses = s.studentCourses)
    (henrolled : ∀ who c, (s'.enrollments who).get? c ≠ none ↔ (s.enrollments who).get? c ≠ none) :
    CoursesInv s' :=
  ⟨fun who => hcourses ▸ hi.nodup who,
    fun who c => by rw [hcourses, henrolled]; exact hi.mem_iff who c⟩

theorem CoursesInv.enroll (hi : CoursesInv s) {student : α} {courseId : Nat}
    (h : enroll cfg s student courseId = .ok s') : CoursesInv s' := by
  obtain ⟨course, -, -, hnone, -, rfl⟩ := enroll_ok h
  -- the course was not listed, having no enrollment
  have hnotmem : courseId ∉ s.studentCourses student := fun hm =>
    (hi.mem_iff student courseId).mp hm hnone
  have hnodup : (s.studentCourses student ++ [courseId]).Nodup := by
    rw [← List.concat_eq_append]
    exact (hi.nodup student).concat hnotmem
  refine ⟨(Function.forall_update_iff _ fun _ l => List.Nodup l).mpr
    ⟨hnodup, fun who _ => hi.nodup who⟩, fun who c => ?_⟩
  · by_cases hw : who = student
    · subst hw
      simp only [Function.update_self, List.mem_append, List.mem_singleton, StorageMap.get?_insert]
      rw [hi.mem_iff who c]
      split_ifs with hc
      · simp [hc]
      · simp [hc]
    · simp only [Function.update_of_ne hw]
      exact hi.mem_iff who c

theorem CoursesInv.completeCourse (hi : CoursesInv s) {student : α} {courseId points : Nat}
    (h : completeCourse s student courseId points = .ok s') : CoursesInv s' := by
  obtain ⟨e, he, -, rfl⟩ := completeCourse_ok h
  refine hi.of_frame rfl fun who c => ?_
  by_cases hw : who = student
  · subst hw
    simp only [Function.update_self, StorageMap.get?_insert]
    split_ifs with hc
    · -- the completed enrollment stays
      subst hc
      simp [he]
    · exact Iff.rfl
  · simp only [Function.update_of_ne hw]

theorem CoursesInv.step (hi : CoursesInv s) (a : Action α) : CoursesInv (step cfg s a) := by
  cases a with
  | createCourse origin =>
    refine commit_of_ok hi fun s' h => ?_
    obtain ⟨he, hc⟩ := createCourse_ok h
    exact hi.of_frame hc fun who c => by rw [he]
  | enroll student courseId => exact commit_of_ok hi fun _ h => hi.enroll h
  | completeCourse student courseId points => exact commit_of_ok hi fun _ h => hi.completeCourse h
  | archiveCourse caller courseId =>
    refine commit_of_ok hi fun s' h => ?_
    obtain ⟨he, hc⟩ := archiveCourse_ok h
    exact hi.of_frame hc fun who c => by rw [he]
  | advance b =>
    simp only [Perwerde.step]
    split_ifs
    · exact hi.of_frame rfl fun _ _ => Iff.rfl
    · exact hi

theorem coursesInv_of_reachable (h : Reachable (step cfg) genesis s) : CoursesInv s :=
  h.invariant coursesInv_genesis fun _ a hi => hi.step a

/-! ## The score -/

/-- A score reads the student's course list and enrollments only. -/
theorem getPerwerdeScore_congr {who : α} (hcourses : s'.studentCourses who = s.studentCourses who)
    (henrollments : s'.enrollments who = s.enrollments who) :
    getPerwerdeScore s' who = getPerwerdeScore s who := by
  have hpoints : pointsOf s' who = pointsOf s who := by
    funext c
    rw [pointsOf, pointsOf, henrollments]
  rw [getPerwerdeScore, getPerwerdeScore, hcourses, hpoints]

/-- Enrolling changes no score: the new enrollment is not completed. -/
theorem getPerwerdeScore_enroll {student : α} {courseId : Nat}
    (h : enroll cfg s student courseId = .ok s') (who : α) :
    getPerwerdeScore s' who = getPerwerdeScore s who := by
  obtain ⟨course, -, -, hnone, -, hs'⟩ := enroll_ok h
  by_cases hw : who = student
  · subst hw
    -- the enrolled course counts for nothing, before and after
    have hbefore : pointsOf s who courseId = none := by
      rw [pointsOf, hnone]
      rfl
    have hpoints : pointsOf s' who = pointsOf s who := by
      funext c
      rw [hs', pointsOf]
      dsimp only
      rw [Function.update_self, StorageMap.get?_insert]
      split_ifs with hc
      · subst hc
        rw [hbefore]
        rfl
      · rfl
    have hcourses : s'.studentCourses who = s.studentCourses who ++ [courseId] := by
      rw [hs']
      exact Function.update_self _ _ _
    rw [getPerwerdeScore, getPerwerdeScore, hcourses, hpoints, List.filterMap_append,
      List.filterMap_cons_none hbefore, List.filterMap_nil, List.append_nil]
  · exact getPerwerdeScore_congr (by rw [hs']; exact Function.update_of_ne hw _ _)
      (by rw [hs']; exact Function.update_of_ne hw _ _)

/-- Completing a course adds its points, once, to the score of the student who completes it,
and changes no other score. -/
theorem getPerwerdeScore_completeCourse (hi : CoursesInv s) {student : α} {courseId points : Nat}
    (h : completeCourse s student courseId points = .ok s') :
    getPerwerdeScore s' student = wrappingAdd 32 (getPerwerdeScore s student) points ∧
      ∀ who, who ≠ student → getPerwerdeScore s' who = getPerwerdeScore s who := by
  obtain ⟨e, he, hc, hs'⟩ := completeCourse_ok h
  refine ⟨?_, fun who hw => getPerwerdeScore_congr (by rw [hs'])
    (by rw [hs']; exact Function.update_of_ne hw _ _)⟩
  -- the course is listed once: `StudentCourses = l₁ ++ courseId :: l₂`
  have hmem : courseId ∈ s.studentCourses student :=
    (hi.mem_iff student courseId).mpr (by rw [he]; exact Option.some_ne_none e)
  obtain ⟨l₁, l₂, hsplit⟩ := List.append_of_mem hmem
  have hnodup := hi.nodup student
  rw [hsplit, List.nodup_append, List.nodup_cons] at hnodup
  obtain ⟨-, ⟨hnot₂, -⟩, hdisj⟩ := hnodup
  -- the points of the other listed courses do not change
  have hpoints : ∀ c, c ≠ courseId → pointsOf s' student c = pointsOf s student c := by
    intro c hne
    rw [hs', pointsOf, pointsOf]
    dsimp only
    rw [Function.update_self, StorageMap.get?_insert, if_neg hne]
  have hbefore : pointsOf s student courseId = none := by
    rw [pointsOf, he]
    simp [hc]
  have hafter : pointsOf s' student courseId = some points := by
    rw [hs', pointsOf]
    simp
  have h₁ : l₁.filterMap (pointsOf s' student) = l₁.filterMap (pointsOf s student) :=
    List.filterMap_congr fun c hc => hpoints c fun h => hdisj c hc courseId (by simp) h
  have h₂ : l₂.filterMap (pointsOf s' student) = l₂.filterMap (pointsOf s student) :=
    List.filterMap_congr fun c hc => hpoints c fun h => hnot₂ (h ▸ hc)
  have hcourses : s'.studentCourses student = s.studentCourses student := by rw [hs']
  rw [getPerwerdeScore, getPerwerdeScore, hcourses, hsplit, wrappingSum_eq_mod, wrappingSum_eq_mod,
    List.filterMap_append, List.filterMap_append, List.filterMap_cons_some hafter,
    List.filterMap_cons_none hbefore, h₁, h₂, wrappingAdd, Nat.mod_add_mod]
  simp only [List.sum_append, List.sum_cons]
  congr 1
  omega

/-- A student raises their own score: in every reachable state, a student with an uncompleted
enrollment signs `complete_course` with any points, the call succeeds, and their score grows by
those points (modulo `2^32`). -/
theorem completeCourse_self_awards (hs : Reachable (step cfg) genesis s) {student : α}
    {courseId : Nat} {e : Enrollment α} (he : (s.enrollments student).get? courseId = some e)
    (hc : e.completedAt = none) (points : Nat) :
    (Action.completeCourse student courseId points).signer = some student ∧
      getPerwerdeScore (step cfg s (.completeCourse student courseId points)) student =
        wrappingAdd 32 (getPerwerdeScore s student) points := by
  refine ⟨rfl, ?_⟩
  have hok := completeCourse_of_enrolled he hc points
  simp only [Perwerde.step, hok, commit_ok]
  exact (getPerwerdeScore_completeCourse (coursesInv_of_reachable hs) hok).1

/-! ## The score along any call -/

/-- The points a call awards to `who`: those of a `complete_course` that `who` signs for one of
their enrollments not yet completed. No other call awards points, and no call awards them to an
account other than its signer. -/
def awardedTo (s : State α) (who : α) : Action α → Nat
  | .completeCourse student courseId points =>
    if student = who ∧ ((s.enrollments student).get? courseId).any (fun e => e.completedAt.isNone)
    then points else 0
  | .createCourse _ | .enroll _ _ | .archiveCourse _ _ | .advance _ => 0

/-- A score is a `u32`. -/
theorem getPerwerdeScore_lt (s : State α) (who : α) : getPerwerdeScore s who < 2 ^ 32 := by
  rw [getPerwerdeScore, wrappingSum_eq_mod]
  exact Nat.mod_lt _ (Nat.two_pow_pos 32)

/-- Adding no points keeps a score. -/
theorem wrappingAdd_getPerwerdeScore_zero (s : State α) (who : α) :
    wrappingAdd 32 (getPerwerdeScore s who) 0 = getPerwerdeScore s who :=
  wrappingAdd_of_lt (getPerwerdeScore_lt s who)

/-- A call that keeps a score when it succeeds keeps it: a failed call is rolled back. -/
theorem getPerwerdeScore_commit {r : Except Error (State α)} {who : α}
    (hok : ∀ s', r = .ok s' → getPerwerdeScore s' who = getPerwerdeScore s who) :
    getPerwerdeScore (commit r s) who = getPerwerdeScore s who :=
  commit_of_ok (P := fun t => getPerwerdeScore t who = getPerwerdeScore s who) rfl hok

/-- A call that writes neither the course lists nor the enrollments, successful or not, keeps
every score. -/
theorem getPerwerdeScore_commit_of_frame {r : Except Error (State α)} {who : α}
    (hframe : ∀ s', r = .ok s' →
      s'.enrollments = s.enrollments ∧ s'.studentCourses = s.studentCourses) :
    getPerwerdeScore (commit r s) who = getPerwerdeScore s who :=
  getPerwerdeScore_commit fun s' h => by
    obtain ⟨he, hc⟩ := hframe s' h
    exact getPerwerdeScore_congr (by rw [hc]) (by rw [he])

/-- A refused completion awards nothing: a student who signs it has no uncompleted enrollment
in the course. -/
theorem awardedTo_of_error {student who : α} {courseId points : Nat} {err : Error}
    (h : completeCourse s student courseId points = .error err) :
    awardedTo s who (.completeCourse student courseId points) = 0 := by
  rw [awardedTo, if_neg]
  rintro ⟨-, hany⟩
  obtain ⟨e, he, hc⟩ := (Option.any_eq_true _ _).mp hany
  rw [completeCourse_of_enrolled he (Option.isNone_iff_eq_none.mp hc) points] at h
  cases h

/-- Along any call from a reachable state, an account's score changes only by the points the
call awards it: a `complete_course` it signs for its own uncompleted enrollment adds the points
it passes, modulo `2^32`, and every other call, whoever signs it, leaves the score as it was. -/
theorem getPerwerdeScore_step (hs : Reachable (step cfg) genesis s) (a : Action α) (who : α) :
    getPerwerdeScore (step cfg s a) who =
      wrappingAdd 32 (getPerwerdeScore s who) (awardedTo s who a) := by
  cases a with
  | createCourse origin =>
    rw [awardedTo, wrappingAdd_getPerwerdeScore_zero]
    exact getPerwerdeScore_commit_of_frame fun _ h => createCourse_ok h
  | enroll student courseId =>
    rw [awardedTo, wrappingAdd_getPerwerdeScore_zero]
    exact getPerwerdeScore_commit fun _ h => getPerwerdeScore_enroll h who
  | archiveCourse caller courseId =>
    rw [awardedTo, wrappingAdd_getPerwerdeScore_zero]
    exact getPerwerdeScore_commit_of_frame fun _ h => archiveCourse_ok h
  | advance b =>
    rw [awardedTo, wrappingAdd_getPerwerdeScore_zero, Perwerde.step]
    split_ifs
    · exact getPerwerdeScore_congr rfl rfl
    · rfl
  | completeCourse student courseId points =>
    simp only [Perwerde.step]
    cases hok : completeCourse s student courseId points with
    | error err =>
      rw [commit_error, awardedTo_of_error hok, wrappingAdd_getPerwerdeScore_zero]
    | ok s' =>
      obtain ⟨e, he, hc, -⟩ := completeCourse_ok hok
      have hlaw := getPerwerdeScore_completeCourse (coursesInv_of_reachable hs) hok
      rw [commit_ok, awardedTo]
      by_cases hw : student = who
      · -- the signer's own score: the points are added
        subst hw
        rw [if_pos ⟨rfl, by simp [he, hc]⟩]
        exact hlaw.1
      · -- another account's score: nothing is awarded
        rw [if_neg fun h => hw h.1, wrappingAdd_getPerwerdeScore_zero]
        exact hlaw.2 who (Ne.symm hw)

/-- Account `1` completes its enrollment in course `0` with 100 points: the call awards it those
points. -/
theorem getPerwerdeScore_step_after_enrollment :
    getPerwerdeScore (step ⟨fun who => who == 0, 1000⟩ (run (step ⟨fun who => who == 0, 1000⟩)
        genesis [.createCourse 0, .enroll 1 0]) (.completeCourse 1 0 100)) 1 =
      wrappingAdd 32 (getPerwerdeScore (run (step ⟨fun who => who == 0, 1000⟩) genesis
        [.createCourse 0, .enroll 1 0]) 1)
        (awardedTo (run (step ⟨fun who => who == 0, 1000⟩) genesis
          [.createCourse 0, .enroll 1 0]) 1 (.completeCourse 1 0 100)) :=
  getPerwerdeScore_step (reachable_run _) _ 1

/-! ## The score from the enrollments alone -/

/-- The points an enrollment counts for: its points once completed, none before. -/
def Enrollment.completedPoints (e : Enrollment α) : Nat :=
  if e.completedAt.isSome then e.pointsEarned else 0

/-- A sum of the selected values is the sum with zero for each value left out. -/
theorem sum_filterMap_eq_sum_map_getD {β : Type} (f : β → Option Nat) (l : List β) :
    (l.filterMap f).sum = (l.map fun b => (f b).getD 0).sum := by
  induction l with
  | nil => rfl
  | cons b l ih =>
    cases hb : f b with
    | none =>
      rw [List.filterMap_cons_none hb, ih, List.map_cons, List.sum_cons, hb, Option.getD_none,
        Nat.zero_add]
    | some n =>
      rw [List.filterMap_cons_some hb, List.sum_cons, ih, List.map_cons, List.sum_cons, hb,
        Option.getD_some]

theorem getD_pointsOf (s : State α) (who : α) (c : Nat) :
    (pointsOf s who c).getD 0 =
      (((s.enrollments who).get? c).map fun e => e.completedPoints).getD 0 := by
  unfold pointsOf Enrollment.completedPoints
  cases (s.enrollments who).get? c with
  | none => rfl
  | some e => by_cases hc : e.completedAt.isSome <;> simp [hc]

/-- Where `StudentCourses` lists the enrolled courses once each, the score is the `u32` sum of
the points of the completed enrollments, whatever the order of the list. -/
theorem CoursesInv.getPerwerdeScore_eq_sumBy (hi : CoursesInv s) (who : α) :
    getPerwerdeScore s who =
      (s.enrollments who).sumBy (fun _ e => e.completedPoints) % 2 ^ 32 := by
  -- the listed courses are the keys of the enrollments
  have hkeys : (s.studentCourses who).toFinset = (s.enrollments who).keySet := by
    ext c
    rw [List.mem_toFinset, hi.mem_iff, StorageMap.mem_keySet, Option.ne_none_iff_exists']
  rw [getPerwerdeScore, wrappingSum_eq_mod, sum_filterMap_eq_sum_map_getD,
    ← List.sum_toFinset _ (hi.nodup who), hkeys, StorageMap.sumBy_eq_sum_keySet]
  simp only [getD_pointsOf]

/-- On every run, a student's Perwerde score is determined by the enrollments alone: it is the
`u32` sum of the points of the student's completed enrollments, each counted once, and an
enrollment not completed counts for nothing. -/
theorem getPerwerdeScore_eq_completedPoints (hs : Reachable (step cfg) genesis s) (who : α) :
    getPerwerdeScore s who =
      (s.enrollments who).sumBy (fun _ e => e.completedPoints) % 2 ^ 32 :=
  (coursesInv_of_reachable hs).getPerwerdeScore_eq_sumBy who

/-- After account `1` enrolls in course `0` and completes it with 7 points, its score is the sum
over its one completed enrollment. -/
theorem getPerwerdeScore_eq_completedPoints_after_completion :
    getPerwerdeScore (run (step ⟨fun who => who == 0, 1000⟩) genesis
        [.createCourse 0, .enroll 1 0, .completeCourse 1 0 7]) 1 =
      ((run (step ⟨fun who => who == 0, 1000⟩) genesis
        [.createCourse 0, .enroll 1 0, .completeCourse 1 0 7]).enrollments 1).sumBy
          (fun _ e => e.completedPoints) % 2 ^ 32 :=
  getPerwerdeScore_eq_completedPoints (reachable_run _) 1

/-! ## A student completing their own course -/

/-- Account `0` is the only admin; a student may enroll in up to 1000 courses, as in the
runtime. -/
def sampleConfig : Config Nat := ⟨fun who => who == 0, 1000⟩

/-- The admin creates course `0` and account `1` enrolls in it. -/
def enrolledRun : List (Action Nat) := [.createCourse 0, .enroll 1 0]

/-- Account `1`, no admin, signs `complete_course(0, 100)` and its score goes from 0 to 100. -/
theorem student_completes_own_course :
    sampleConfig.isAdmin 1 = false ∧
      getPerwerdeScore (run (step sampleConfig) genesis enrolledRun) 1 = 0 ∧
      getPerwerdeScore (step sampleConfig (run (step sampleConfig) genesis enrolledRun)
        (.completeCourse 1 0 100)) 1 = 100 := by
  decide +kernel

/-! ## A score that wraps -/

/-- The admin creates courses `0` and `1`, and account `1` enrolls in both. -/
def twoCourseRun : List (Action Nat) :=
  [.createCourse 0, .createCourse 0, .enroll 1 0, .enroll 1 1]

/-- Account `1` completes course `0` with `u32::MAX` points, then course `1` with one point: the
exact sum is `2 ^ 32`, and the score falls from `u32::MAX` to `0`. -/
theorem perwerde_score_wraps :
    getPerwerdeScore (run (step sampleConfig) genesis
        (twoCourseRun ++ [.completeCourse 1 0 (maxValue 32)])) 1 = maxValue 32 ∧
      getPerwerdeScore (run (step sampleConfig) genesis
        (twoCourseRun ++ [.completeCourse 1 0 (maxValue 32), .completeCourse 1 1 1])) 1 = 0 ∧
      maxValue 32 + 1 = 2 ^ 32 := by
  rw [maxValue_32]
  decide +kernel

end Perwerde
