import Pezkuwi.Storage.Map
import Pezkuwi.Arith.Bounded
import Pezkuwi.Machine.Reach

/-!
# Perwerde: courses, enrollments and the education score

`pallet-perwerde` keeps courses created by an admin, the enrollments of students in them, and
for each student the list of courses they enrolled in. A completed enrollment carries points,
and a student's Perwerde score, which `pallet-trust` reads, is the sum of the points of their
completed enrollments.

The model follows `src/pezkuwi/pallets/perwerde/src/lib.rs`. A course's name, description and
content link are stored but read by no call and are left out. `AdminOrigin` is the runtime's
`EnsureMember` of the council collective, a predicate on the signer (`Config.isAdmin`).
`NextCourseId` and the score are `u32` sums, which wrap in a build without overflow checks.

## Main definitions

* `State`, `Config`: the pallet's storage, its admin and its bound on a student's courses
* `createCourse`, `enroll`, `completeCourse`, `archiveCourse`: the calls
* `getPerwerdeScore`: the score `pallet-trust` reads
* `Action`, `step`: the calls with their signers, dispatched with rollback on failure
-/

namespace Perwerde

open Bounded Machine

/-- `CourseStatus`. -/
inductive CourseStatus where
  | active
  | archived
  deriving DecidableEq, Repr

/-- `Course`, without its name, description and content link. -/
structure Course (α : Type) where
  id : Nat
  owner : α
  status : CourseStatus
  createdAt : Nat
  deriving DecidableEq, Repr

/-- `Enrollment`. -/
structure Enrollment (α : Type) where
  student : α
  courseId : Nat
  enrolledAt : Nat
  completedAt : Option Nat
  pointsEarned : Nat
  deriving DecidableEq, Repr

/-- `Error`, and the failure of an origin check. -/
inductive Error where
  | courseNotFound
  | alreadyEnrolled
  | notEnrolled
  | courseNotActive
  | courseAlreadyCompleted
  | notCourseOwner
  | tooManyCourses
  | badOrigin
  deriving DecidableEq, Repr

/-- The runtime's configuration of the pallet. -/
structure Config (α : Type) where
  /-- `AdminOrigin`: the signer is a member of the council collective. -/
  isAdmin : α → Bool
  /-- `MaxStudentsPerCourse`, the bound of a student's `StudentCourses` list. -/
  maxStudentsPerCourse : Nat

/-- The pallet's storage and the block number; `enrollments who` is `Enrollments(who, ·)`. -/
structure State (α : Type) [LinearOrder α] where
  blockNumber : Nat
  courses : StorageMap Nat (Course α)
  nextCourseId : Nat
  enrollments : α → StorageMap Nat (Enrollment α)
  studentCourses : α → List Nat

variable {α : Type} [LinearOrder α]

/-- The empty storage. -/
def genesis : State α :=
  ⟨0, ∅, 0, fun _ => ∅, fun _ => []⟩

variable (cfg : Config α)

/-! ## The calls -/

/-- `create_course`, signed by `origin`. -/
def createCourse (s : State α) (origin : α) : Except Error (State α) := do
  ensure (cfg.isAdmin origin = true) .badOrigin
  let courseId := s.nextCourseId
  return { s with
    courses := s.courses.insert courseId ⟨courseId, origin, .active, s.blockNumber⟩
    nextCourseId := wrappingAdd 32 courseId 1 }

/-- `enroll`, signed by `student`. The enrollment is written before the course is pushed to
`StudentCourses`; when the push fails the call fails and both writes are rolled back. -/
def enroll (s : State α) (student : α) (courseId : Nat) : Except Error (State α) := do
  let course ← okOr (s.courses.get? courseId) .courseNotFound
  ensure (course.status = .active) .courseNotActive
  ensure ((s.enrollments student).get? courseId = none) .alreadyEnrolled
  let enrollment : Enrollment α := ⟨student, courseId, s.blockNumber, none, 0⟩
  let s := { s with
    enrollments := Function.update s.enrollments student
      ((s.enrollments student).insert courseId enrollment) }
  -- `try_push` on the bounded list
  ensure ((s.studentCourses student).length < cfg.maxStudentsPerCourse) .tooManyCourses
  return { s with
    studentCourses := Function.update s.studentCourses student
      (s.studentCourses student ++ [courseId]) }

/-- `complete_course`, signed by `student`: the signer marks their own enrollment completed with
the points they choose. -/
def completeCourse (s : State α) (student : α) (courseId points : Nat) :
    Except Error (State α) := do
  let enrollment ← okOr ((s.enrollments student).get? courseId) .notEnrolled
  ensure (enrollment.completedAt = none) .courseAlreadyCompleted
  let enrollment := { enrollment with completedAt := some s.blockNumber, pointsEarned := points }
  return { s with
    enrollments := Function.update s.enrollments student
      ((s.enrollments student).insert courseId enrollment) }

/-- `archive_course`, signed by `caller`. -/
def archiveCourse (s : State α) (caller : α) (courseId : Nat) : Except Error (State α) := do
  ensure (cfg.isAdmin caller = true) .badOrigin
  let course ← okOr (s.courses.get? courseId) .courseNotFound
  ensure (course.owner = caller) .notCourseOwner
  return { s with courses := s.courses.insert courseId { course with status := .archived } }

/-- The points a completed enrollment of `who` in `courseId` counts for, as `filter_map` and
`filter` select them. -/
def pointsOf (s : State α) (who : α) (courseId : Nat) : Option Nat :=
  ((s.enrollments who).get? courseId).bind fun e =>
    if e.completedAt.isSome then some e.pointsEarned else none

/-- `get_perwerde_score`: the `u32` sum, from zero, of the points of the completed enrollments
of the courses in `StudentCourses(who)`. -/
def getPerwerdeScore (s : State α) (who : α) : Nat :=
  wrappingSum 32 ((s.studentCourses who).filterMap (pointsOf s who))

/-! ## Runs -/

/-- The calls with their signers, and the passing of blocks. -/
inductive Action (α : Type) where
  | createCourse (origin : α)
  | enroll (student : α) (courseId : Nat)
  | completeCourse (student : α) (courseId points : Nat)
  | archiveCourse (caller : α) (courseId : Nat)
  | advance (blockNumber : Nat)

/-- The account that signs a call; blocks pass unsigned. -/
def Action.signer : Action α → Option α
  | .createCourse origin => some origin
  | .enroll student _ => some student
  | .completeCourse student _ _ => some student
  | .archiveCourse caller _ => some caller
  | .advance _ => none

/-- One step: a failed call is rolled back, a block number only grows. -/
def step (s : State α) : Action α → State α
  | .createCourse origin => commit (createCourse cfg s origin) s
  | .enroll student courseId => commit (enroll cfg s student courseId) s
  | .completeCourse student courseId points => commit (completeCourse s student courseId points) s
  | .archiveCourse caller courseId => commit (archiveCourse cfg s caller courseId) s
  | .advance b => if s.blockNumber ≤ b then { s with blockNumber := b } else s

end Perwerde
