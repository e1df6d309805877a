import ReviewChecks.Fetch

/-!
# Sample data

Changes and runs to try things out with.
-/

namespace ReviewChecks.Fixture

def project : String := "platform/tools"

def sha (patchset : UInt32) : String :=
  "sha" ++ String.ofList (Text.padded 10 3 patchset.toNat)

def message (patchset : UInt32) : String :=
  s!"Fix the build\n\nPatchset {Text.ofNat patchset.toNat}"

def upTo (count : UInt32) : List UInt32 :=
  (List.range count.toNat).map fun index => UInt32.ofNat (index + 1)

def change (number : UInt64) (patchsets : UInt32) : ChangeInfo :=
  (upTo patchsets).foldl (fun change patchset => change.addRevision (sha patchset) patchset (message patchset))
    (.ofNumber number project)

/-- A completed run of a build with one error, and a lint run that is still running. -/
def runs (change : UInt64) (patchset : UInt32) : List Run :=
  let label := "build-" ++ Text.ofNat patchset.toNat
  [{ info := { change, patchset, attempt := some 1, externalId := some label, checkName := "build" }
     results := [{
       externalId := some (label ++ "-r1")
       category := .error
       summary := "Compilation failed"
       message := some "error[E0308]: mismatched types" }] },
    { info := { change, patchset, checkName := "lint", status := .running } }]

/-- Attempts of one check, numbered from one. -/
def retriedRuns (check : String) (change : UInt64) (patchset count : UInt32) : List Run :=
  (upTo count).map fun attempt =>
    { info := { change, patchset, attempt := some attempt, checkName := check } }

end ReviewChecks.Fixture
