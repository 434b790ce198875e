import Mathlib.Order.Bounds.Basic

/-!
# Recurrence rules

This file models how both scheduler packages find the next run of a recurring job.  Instants are
milliseconds since the epoch, and everything that a call reads off the clock it reads at one
instant.  The parser of rules and the formatting of dates are libraries of the packages.
-/

namespace Steveo.Scheduler

/-- The recurrence library: parsed rules and the search for their occurrences. -/
structure RRuleLibrary where
  RRuleSet : Type
  parse : String → Except String RRuleSet
  /-- The occurrences between two instants, which are included if the flag is set. -/
  between : RRuleSet → Int → Int → Bool → List Int

/-- An inclusive search finds exactly the occurrences in its window, in ascending order. -/
structure RRuleLibrary.Searches (library : RRuleLibrary)
    (occurs : library.RRuleSet → Int → Prop) : Prop where
  mem_between : ∀ rule first last run, run ∈ library.between rule first last true ↔
    occurs rule run ∧ first ≤ run ∧ run ≤ last
  ascending : ∀ rule first last, (library.between rule first last true).Pairwise (· ≤ ·)

/-- The date library. -/
structure Moment where
  /-- An instant as a date string. -/
  toISOString : Int → String
  /-- A date as wall-clock time of a time zone, to the second; `none` is an undefined argument. -/
  format : Option String → Option String → Except String String

/-- Half a year in milliseconds. -/
def SIX_MONTHS_IN_MS : Int := 15778476000

/-- The pieces of a text between the occurrences of a separator. -/
def split (text : String) (separator : Char) : List String :=
  (text.toList.splitOn separator).map String.ofList

/-- The time zone and the start date after one part of a rule, from those known before it. -/
def readPart (known : Option String × Option String) (part : String) :
    Option String × Option String :=
  match (split part '=')[0]?, (split part '=')[1]? with
  | some "TZID", value => (value, known.2)
  | some "DTSTART", value => (known.1, value)
  | _, _ => known

/-- Whether a part of a rule stays in the rule. -/
def staysInRule (part : String) : Bool :=
  (split part '=')[0]? != some "TZID" && (split part '=')[0]? != some "DTSTART"

/-- A rule with an explicit start date and time zone. -/
def getValidRule (moment : Moment) (now : Int) (recurrence : String) (timezone : Option String) :
    Except String String :=
  if recurrence.startsWith "DTSTART" then
    .ok recurrence
  else do
    let parts := split recurrence ';'
    let read := parts.foldl readPart (some (timezone.getD "UTC"), some (moment.toISOString now))
    let rule := ";".intercalate (parts.filter staysInRule)
    let timeISO8601 ← moment.format read.2 read.1
    pure ("DTSTART;TZID=" ++ read.1.getD "undefined" ++ ":" ++ timeISO8601 ++ "\nRRULE:" ++ rule)

variable (library : RRuleLibrary) (moment : Moment)

/-- An interval that is not empty. -/
def requireInterval (interval : Option String) (message : String) : Except String String :=
  match interval with
  | none | some "" => throw message
  | some recurrence => pure recurrence

/-- The parsed rule of a recurrence string. -/
def parsedRule (now : Int) (recurrence : String) (timezone : Option String) :
    Except String library.RRuleSet := do
  let rule ← getValidRule moment now recurrence timezone
  library.parse rule

/-- The next runs of an interval. -/
def computeNextRuns (now : Int) (interval timezone : Option String) (startDate : Int)
    (count : Nat) : Except String (List Int) := do
  let recurrence ← requireInterval interval "Error: Need a valid interval to compute next runs"
  let rrule ← parsedRule library moment now recurrence timezone
  let runCount := min count 30
  pure ((library.between rrule startDate (startDate + SIX_MONTHS_IN_MS) true).take runCount)

/-- The next run of an interval, if there is one within half a year. -/
def computeNextRun (now : Int) (interval timezone : Option String) :
    Except String (Option Int) := do
  let recurrence ← requireInterval interval "Error: Need a valid interval to compute next run"
  let runs ← computeNextRuns library moment now (some recurrence) timezone now 1
  pure runs.head?

/-! ## The next run is the earliest one in the window -/

variable {library moment}

/-- The occurrences of a rule in the half year from an instant on. -/
def window (occurs : library.RRuleSet → Int → Prop) (rule : library.RRuleSet) (now : Int) :
    Set Int :=
  { run | occurs rule run ∧ now ≤ run ∧ run ≤ now + SIX_MONTHS_IN_MS }

/-- The least element of a set, if it has any. -/
def Earliest (runs : Set Int) : Option Int → Prop
  | none => runs = ∅
  | some run => IsLeast runs run

/-- The head of an ascending list is the least of its elements. -/
theorem earliest_head? {runs : List Int} (ascending : runs.Pairwise (· ≤ ·)) :
    Earliest { run | run ∈ runs } runs.head? := by
  cases runs with
  | nil => exact Set.eq_empty_of_forall_notMem fun _ => List.not_mem_nil
  | cons first runs =>
      obtain ⟨later, -⟩ := List.pairwise_cons.mp ascending
      refine ⟨List.mem_cons_self, fun other member => ?_⟩
      rcases List.mem_cons.mp member with rfl | member
      · exact le_rfl
      · exact later other member

private theorem ok_bind {α β : Type} (value : α) (next : α → Except String β) :
    (Except.ok value >>= next) = next value := rfl

theorem requireInterval_some {recurrence : String} (filled : recurrence ≠ "") (message : String) :
    requireInterval (some recurrence) message = .ok recurrence := by
  rw [requireInterval.eq_def]
  split
  · contradiction
  · rename_i empty
    exact absurd (Option.some.inj empty) filled
  · rename_i same
    exact congrArg Except.ok (Option.some.inj same).symm

/-- The next run of a rule that the library can read is the first one that it finds. -/
theorem computeNextRun_eq {now : Int} {recurrence : String} {timezone : Option String}
    {rule : library.RRuleSet} (filled : recurrence ≠ "")
    (parsed : parsedRule library moment now recurrence timezone = .ok rule) :
    computeNextRun library moment now (some recurrence) timezone =
      .ok ((library.between rule now (now + SIX_MONTHS_IN_MS) true).take 1).head? := by
  simp only [computeNextRun, computeNextRuns, requireInterval_some filled, ok_bind, parsed]
  rfl

/-- The next run is the earliest occurrence in the window. -/
theorem computeNextRun_spec {occurs : library.RRuleSet → Int → Prop}
    (searches : library.Searches occurs) {now : Int} {recurrence : String}
    {timezone : Option String} {rule : library.RRuleSet} (filled : recurrence ≠ "")
    (parsed : parsedRule library moment now recurrence timezone = .ok rule) :
    ∃ next, computeNextRun library moment now (some recurrence) timezone = .ok next ∧
      Earliest (window occurs rule now) next := by
  let runs := library.between rule now (now + SIX_MONTHS_IN_MS) true
  refine ⟨(runs.take 1).head?, computeNextRun_eq filled parsed, ?_⟩
  have members : { run | run ∈ runs } = window occurs rule now := by
    ext run
    exact searches.mem_between rule now _ run
  have first : (runs.take 1).head? = runs.head? := by cases runs <;> rfl
  rw [first, ← members]
  exact earliest_head? (searches.ascending rule now _)

end Steveo.Scheduler
