import Muster.Fault
import Muster.Job.Basic
import Muster.Text.Blank

/-!
# Selections of jobs

Jobs as a user types them: single ids, ranges, ids counted back from the newest job, the last job, and
all of them. A selection is a set of numbers in which 0 stands for every job.
-/

namespace Muster

/-- Numbers of jobs as typed: 0 for every job, and negative ones counted back from the newest. -/
abbrev JobIds := SortedSet Int

namespace JobIds

/-- The number for every job. -/
def every : Int := 0

/-- The number for the newest job. -/
def newest : Int := -1

/-- One item of a selection. -/
inductive Item
  | every
  | newest
  | one (id : Int)
  | between (first last : Int)
  deriving DecidableEq, Repr

/-- The numbers from `first` to `last`, none if there are none. -/
def interval (first last : Int) : List Int :=
  (List.range (last - first + 1).toNat).map fun (k : Nat) => first + k

def Item.ids : Item → List Int
  | every => [0]
  | newest => [-1]
  | one id => [id]
  | between first last => interval first last

/-- An id other than 0. -/
def readId (typed : List Char) : Except Fault Int :=
  match (Text.int32? (Text.trimmed typed)).filter (· ≠ 0) with
  | some id => .ok id
  | none => .error (.argument (.jobId (String.ofList typed)))

/-- The two sides of a range. A dash in front is a sign. -/
def sides? : List Char → Option (List Char × List Char)
  | '-' :: _ => none
  | s => Text.splitOnce? '-' s

def readItem (typed : List Char) : Except Fault Item :=
  let item := Text.trimmed typed
  let word := item.map Char.toLower
  if word = ['*'] ∨ word = ['a', 'l', 'l'] then .ok .every
  else if word = ['l', 'a', 's', 't'] ∨ word = ['~', '~'] then .ok .newest
  else match sides? item with
    | none => (readId item).map .one
    | some (first, last) =>
      let badRange : Fault := .argument (.jobRange (String.ofList item))
      if first.isEmpty || last.isEmpty then .error badRange
      else do
        let first ← readId first
        let last ← readId last
        if first ≠ last ∧ (first < 0 ∨ last < 0) then .error badRange
        else .ok (.between first last)

/-- The items of the arguments, which commas separate. -/
def readItems (args : List String) : Except Fault (List Item) :=
  (args.flatMap fun arg => Text.split ',' arg.toList).mapM readItem

def ofItems (items : List Item) : JobIds :=
  items.foldl (fun ids item => item.ids.foldr (fun id ids => SortedSet.add ids id) ids) ∅

/-- Reads the arguments of a user as a set of numbers. -/
def read (args : List String) : Except Fault JobIds := (readItems args).map ofItems

/-- A number counted back from `newest` as an id. -/
def resolve (newest id : Int) : Int := if id < 0 then newest + 1 + id else id

/-- The set with numbers counted back turned into ids. -/
def normalize (ids : JobIds) (newest : Int) : JobIds :=
  SortedSet.ofList (ids.toList.map (resolve newest))

/-- An empty set selects every job, as 0 does. -/
def selectsAll (ids : JobIds) : Bool := ids.isEmpty || ids.contains every

end JobIds

end Muster
