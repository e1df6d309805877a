import ReviewChecks.Run
import ReviewChecks.Table

/-!
# Attempts

Runs of one check are its attempts. For each check name this module sums up the attempts: their icons in ascending
order of the attempt number, the latest attempt number, and whether there is only one run.
-/

namespace ReviewChecks

structure AttemptDetail where
  attempt : Option UInt32
  icon : StatusIcon
deriving DecidableEq, Repr

def Run.attemptDetail (run : Run) : AttemptDetail where
  attempt := run.info.attempt
  icon := run.icon

/-- Whether an attempt number comes before another or is equal to it; an absent number comes first. -/
def attemptLe : Option UInt32 → Option UInt32 → Bool
  | none, _ => true
  | some _, none => false
  | some left, some right => decide (left ≤ right)

def laterAttempt (left right : Option UInt32) : Option UInt32 :=
  if attemptLe left right then right else left

namespace AttemptDetail

/-- Puts an attempt into an ascending list, before the first that does not come before it. -/
def insertSorted (detail : AttemptDetail) : List AttemptDetail → List AttemptDetail
  | [] => [detail]
  | head :: rest =>
    if attemptLe detail.attempt head.attempt then detail :: head :: rest
    else head :: insertSorted detail rest

/-- Attempts in ascending order of their numbers; attempts of equal number keep their order. -/
def sort (details : List AttemptDetail) : List AttemptDetail :=
  details.foldr insertSorted []

end AttemptDetail

/-- The attempts of one check. -/
structure AttemptInfo where
  attempts : List AttemptDetail := []
  latestAttempt : Option UInt32 := none
  isSingleAttempt : Bool := false
deriving DecidableEq, Repr, Inhabited

namespace AttemptInfo

/-- Whether the given attempt is the latest: always when it is the only one, else when it has the latest number. -/
def isLatest (info : AttemptInfo) (attempt : Option UInt32) : Bool :=
  info.isSingleAttempt || (attempt.isSome && attempt == info.latestAttempt)

/-- The attempts of a check of which nothing but one run is known. -/
def ofFirst (run : Run) : AttemptInfo where
  attempts := [run.attemptDetail]
  latestAttempt := run.info.attempt
  isSingleAttempt := true

/-- The attempts of a check after one more run. -/
def note (info : AttemptInfo) (run : Run) : AttemptInfo where
  attempts := info.attempts ++ [run.attemptDetail]
  latestAttempt := laterAttempt info.latestAttempt run.info.attempt
  isSingleAttempt := false

def sorted (info : AttemptInfo) : AttemptInfo :=
  { info with attempts := AttemptDetail.sort info.attempts }

end AttemptInfo

/-- Adds a run to the attempts known so far. -/
def noteRun (known : Table AttemptInfo) (run : Run) : Table AttemptInfo :=
  known.insert run.info.checkName <|
    match known.find? run.info.checkName with
    | some info => info.note run
    | none => .ofFirst run

/-- The attempts of every check that has a run, by check name. -/
def aggregate (runs : List Run) : Table AttemptInfo :=
  (runs.foldl noteRun .empty).map AttemptInfo.sorted

end ReviewChecks
