import Mathlib.Data.List.Perm.Basic
import Steveo.Scheduler.Reschedule

/-!
# The order of the parts of a rule

This file says when the parts of a recurrence rule may come in any order.  A rule that starts with
`DTSTART` is taken for an iCal string and passed on as it is, so a start date in the first place is
not read.
-/

namespace Steveo.Scheduler

/-- The text of a rule with the given parts. -/
def joined (parts : List String) : String := ";".intercalate parts

/-- Whether a part has the given name. -/
def named (name part : String) : Bool := (split part '=')[0]? == some name

/-- The parts of a rule, with at most one time zone and at most one start date. -/
structure IsRule (parts : List String) : Prop where
  separated : ∀ part ∈ parts, ';' ∉ part.toList
  oneZone : (parts.filter (named "TZID")).length ≤ 1
  oneStart : (parts.filter (named "DTSTART")).length ≤ 1
  /-- The zone and the start date have values. -/
  valued : "TZID" ∉ parts ∧ "DTSTART" ∉ parts

/-- A text on a single line. -/
def OneLine (text : String) : Prop := '\n' ∉ text.toList ∧ '\r' ∉ text.toList

instance decidableOneLine (text : String) : Decidable (OneLine text) :=
  inferInstanceAs (Decidable (_ ∧ _))

/-- The parts of a rule as a parser expects them: none is empty, and each is on a single line. -/
structure IsWellFormedRule (parts : List String) : Prop extends IsRule parts where
  filled : "" ∉ parts
  oneLine : ∀ part ∈ parts, OneLine part

/-- Dates are formatted on a single line. -/
def Moment.OneLine (moment : Moment) : Prop :=
  ∀ start zone time, moment.format start zone = .ok time → Scheduler.OneLine time

/-- The iCal string with a start date in a time zone and the parts of a rule. -/
def iCal (zone time : String) (rule : List String) : String :=
  "DTSTART;TZID=" ++ zone ++ ":" ++ time ++ "\nRRULE:" ++ joined rule

/-- The parser reads the parts of a well-formed rule in any order: the rules that it reads have the
same occurrences, or it reads neither. -/
def RRuleLibrary.Unordered (library : RRuleLibrary) : Prop :=
  ∀ zone time rule rule', OneLine zone → OneLine time →
    (∀ part ∈ rule, part ≠ "" ∧ OneLine part) → rule.Perm rule' →
    (library.parse (iCal zone time rule)).toOption.map library.between =
      (library.parse (iCal zone time rule')).toOption.map library.between

/-- The valid rule of a text starts at the given date, formatted in the given zone, and keeps the
other parts of the text. -/
def Validated (moment : Moment) (now : Int) (timezone : Option String) (parts : List String)
    (zone start : String) : Prop :=
  getValidRule moment now (joined parts) timezone =
    (moment.format (some start) (some zone)).map fun time =>
      iCal zone time (parts.filter staysInRule)

/-- Two lists of parts make the same rule: it starts at the same date in the same zone and has the
same parts. -/
def SameRule (moment : Moment) (now : Int) (timezone : Option String)
    (parts parts' : List String) : Prop :=
  ∃ zone start, Validated moment now timezone parts zone start ∧
    Validated moment now timezone parts' zone start ∧
    (parts.filter staysInRule).Perm (parts'.filter staysInRule)

/-- Two lists of parts make rules with the same next runs. -/
def SameRuns (library : RRuleLibrary) (moment : Moment) (now : Int) (timezone : Option String)
    (parts parts' : List String) : Prop :=
  ∀ startDate count,
    (computeNextRuns library moment now (some (joined parts)) timezone startDate count).toOption =
      (computeNextRuns library moment now (some (joined parts')) timezone startDate count).toOption

/-! ## Joining and splitting -/

@[simp] theorem toList_joined (parts : List String) :
    (joined parts).toList = [';'].intercalate (parts.map String.toList) :=
  String.toList_intercalate

theorem joined_nil : joined [] = "" := String.intercalate_nil

/-- Splitting a rule gives its parts back. -/
theorem split_joined {parts : List String} (separated : ∀ part ∈ parts, ';' ∉ part.toList)
    (nonempty : parts ≠ []) : split (joined parts) ';' = parts := by
  have pieces : (joined parts).toList.splitOn ';' = parts.map String.toList := by
    rw [toList_joined]
    refine List.splitOn_intercalate _ ?_ (by simpa using nonempty)
    simpa [List.forall_mem_map] using separated
  rw [split, pieces, List.map_map]
  simp only [Function.comp_def, String.ofList_toList, List.map_id']

/-- A text without a separator is the only piece of itself. -/
theorem split_of_single {text : String} {separator : Char}
    (single : (split text separator)[1]? = none) :
    (split text separator)[0]? = some text := by
  have whole : [separator].intercalate (text.toList.splitOn separator) = text.toList :=
    List.intercalate_splitOn separator
  have some_piece := List.splitOn_ne_nil separator text.toList
  simp only [split] at single ⊢
  cases pieces : text.toList.splitOn separator with
  | nil => exact absurd pieces some_piece
  | cons first rest =>
      cases rest with
      | nil =>
          rw [pieces, List.intercalate_singleton] at whole
          simp [whole]
      | cons second rest =>
          rw [pieces] at single
          simp at single

/-- What is in a piece is in the whole. -/
theorem mem_intercalate {α : Type} {separator : List α} {pieces : List (List α)} {piece : List α}
    {item : α} (member : piece ∈ pieces) (listed : item ∈ piece) :
    item ∈ separator.intercalate pieces := by
  induction pieces with
  | nil => cases member
  | cons first rest induction =>
      cases rest with
      | nil =>
          obtain rfl := List.mem_singleton.mp member
          simpa using listed
      | cons second rest =>
          rw [List.intercalate_cons_cons]
          rcases List.mem_cons.mp member with rfl | later
          · simp [listed]
          · simp [induction later]

/-- What precedes the first separator of a rule is its first part. -/
theorem mem_of_joined {parts : List String} (separated : ∀ part ∈ parts, ';' ∉ part.toList)
    {first : String} (plain : ';' ∉ first.toList)
    (starts : first.toList ++ [';'] <+: (joined parts).toList) : first ∈ parts := by
  obtain ⟨rest, same⟩ := starts
  have nonempty : parts ≠ [] := by
    rintro rfl
    simp at same
  have pieces := split_joined separated nonempty
  rw [split, ← same, List.append_assoc, List.singleton_append,
    List.splitOn_append_cons_self_of_not_mem plain, List.map_cons, String.ofList_toList] at pieces
  rw [← pieces]
  exact List.mem_cons_self

/-! ## Reading the parts -/

/-- The value of a part. -/
def valueOf (part : String) : Option String := (split part '=')[1]?

/-- The value of a part on a single line is on a single line. -/
theorem OneLine.valueOf {part value : String} (oneLine : OneLine part)
    (found : valueOf part = some value) : OneLine value := by
  rw [Scheduler.valueOf, split, List.getElem?_map, Option.map_eq_some_iff] at found
  obtain ⟨piece, found, rfl⟩ := found
  have kept : ∀ char ∈ piece, char ∈ part.toList := by
    intro char listed
    have whole : ['='].intercalate (part.toList.splitOn '=') = part.toList :=
      List.intercalate_splitOn '='
    rw [← whole]
    exact mem_intercalate (List.mem_of_getElem? found) listed
  rw [OneLine, String.toList_ofList]
  exact ⟨fun listed => oneLine.1 (kept _ listed), fun listed => oneLine.2 (kept _ listed)⟩

theorem readPart_eq (known : Option String × Option String) (part : String) :
    readPart known part =
      (if named "TZID" part then valueOf part else known.1,
        if named "DTSTART" part then valueOf part else known.2) := by
  simp only [readPart, named, valueOf, beq_iff_eq]
  split
  · rename_i zone
    simp [zone]
  · rename_i start
    simp [start]
  · rename_i neitherZone neitherStart
    rw [if_neg neitherZone, if_neg neitherStart]

/-- Of a list with at most one element of a kind, any two of the kind are the same. -/
theorem eq_of_filter_le_one {α : Type} {kind : α → Bool} {items : List α}
    (one : (items.filter kind).length ≤ 1) {item other : α} (member : item ∈ items)
    (member' : other ∈ items) (is : kind item = true) (is' : kind other = true) :
    item = other := by
  have member := List.mem_filter.mpr ⟨member, is⟩
  have member' := List.mem_filter.mpr ⟨member', is'⟩
  obtain ⟨only, same⟩ := List.length_eq_one_iff.mp
    (le_antisymm one (List.length_pos_of_mem member))
  rw [same, List.mem_singleton] at member member'
  exact member.trans member'.symm

namespace IsRule

variable {parts parts' : List String}

/-- The order of the parts does not matter. -/
theorem perm (rule : IsRule parts) (order : parts.Perm parts') : IsRule parts' where
  separated part member := rule.separated part (order.mem_iff.mpr member)
  oneZone := (order.filter _).length_eq ▸ rule.oneZone
  oneStart := (order.filter _).length_eq ▸ rule.oneStart
  valued := ⟨fun member => rule.valued.1 (order.mem_iff.mpr member),
    fun member => rule.valued.2 (order.mem_iff.mpr member)⟩

theorem valueOf_ne_none {part name : String} (bare : name ∉ parts) (member : part ∈ parts)
    (is : named name part = true) : ∃ value, valueOf part = some value := by
  refine Option.ne_none_iff_exists'.mp fun single => ?_
  have whole := split_of_single single
  rw [named, whole, beq_iff_eq, Option.some_inj] at is
  exact bare (is ▸ member)

/-- Two parts of a rule may be read in either order. -/
theorem readPart_comm (rule : IsRule parts) {part other : String} (member : part ∈ parts)
    (member' : other ∈ parts) (known : Option String × Option String) :
    readPart (readPart known part) other = readPart (readPart known other) part := by
  have zones := eq_of_filter_le_one rule.oneZone member member'
  have starts := eq_of_filter_le_one rule.oneStart member member'
  simp only [readPart_eq, Prod.mk.injEq]
  constructor
  · split_ifs with is is'
    · rw [zones is' is]
    all_goals rfl
  · split_ifs with is is'
    · rw [starts is' is]
    all_goals rfl

/-- What a rule says about the zone and the start does not depend on the order of its parts. -/
theorem read_perm (rule : IsRule parts) (order : parts.Perm parts')
    (known : Option String × Option String) :
    parts.foldl readPart known = parts'.foldl readPart known :=
  order.foldl_eq' (fun _ member _ member' known => rule.readPart_comm member member' known) known

/-- Reading parts with values leaves the zone and the start defined, and the zone is on a single
line if all zones are. -/
theorem read_some (valued : "TZID" ∉ parts ∧ "DTSTART" ∉ parts) (zone start : String) :
    ∃ zone' start', parts.foldl readPart (some zone, some start) = (some zone', some start') ∧
      (OneLine zone → (∀ part ∈ parts, OneLine part) → OneLine zone') := by
  induction parts generalizing zone start with
  | nil => exact ⟨zone, start, rfl, fun oneLine _ => oneLine⟩
  | cons part parts ih =>
      obtain ⟨bareZone, bareStart⟩ := valued
      rw [List.foldl_cons, readPart_eq]
      have kept (zone start : String) : ∃ zone' start',
          parts.foldl readPart (some zone, some start) = (some zone', some start') ∧
            (OneLine zone → (∀ other ∈ part :: parts, OneLine other) → OneLine zone') := by
        obtain ⟨zone', start', read, single⟩ := ih
          ⟨fun member => bareZone (List.mem_cons_of_mem _ member),
            fun member => bareStart (List.mem_cons_of_mem _ member)⟩ zone start
        exact ⟨zone', start', read, fun oneLine all =>
          single oneLine fun part member => all part (List.mem_cons_of_mem _ member)⟩
      have given {value : String} (found : valueOf part = some value) (start : String) :
          ∃ zone' start',
            parts.foldl readPart (some value, some start) = (some zone', some start') ∧
              (OneLine zone → (∀ other ∈ part :: parts, OneLine other) → OneLine zone') := by
        obtain ⟨zone', start', read, single⟩ := kept value start
        exact ⟨zone', start', read, fun _ all =>
          single ((all part List.mem_cons_self).valueOf found) all⟩
      split_ifs with isZone isStart isStart
      · obtain ⟨value, found⟩ := valueOf_ne_none bareZone List.mem_cons_self isZone
        rw [found]
        exact given found value
      · obtain ⟨value, found⟩ := valueOf_ne_none bareZone List.mem_cons_self isZone
        rw [found]
        exact given found start
      · obtain ⟨value, found⟩ := valueOf_ne_none bareStart List.mem_cons_self isStart
        rw [found]
        exact kept zone value
      · exact kept zone start

end IsRule

/-! ## Validated rules -/

section

variable {moment : Moment} {now : Int} {timezone : Option String} {parts parts' : List String}

/-- Every part but the zone and the start date is kept, wherever it stands. -/
theorem getValidRule_plain {recurrence : String}
    (plain : recurrence.startsWith "DTSTART" = false) {zone start : String}
    (read : (split recurrence ';').foldl readPart
      (some (timezone.getD "UTC"), some (moment.toISOString now)) = (some zone, some start)) :
    getValidRule moment now recurrence timezone =
      (moment.format (some start) (some zone)).map fun time =>
        iCal zone time ((split recurrence ';').filter staysInRule) := by
  rw [getValidRule, plain]
  simp only [read]
  rfl

theorem validated_of_plain (rule : IsRule parts)
    (plain : (joined parts).startsWith "DTSTART" = false) {zone start : String}
    (read : parts.foldl readPart (some (timezone.getD "UTC"), some (moment.toISOString now)) =
      (some zone, some start)) :
    Validated moment now timezone parts zone start := by
  by_cases nonempty : parts = []
  · -- The empty text is split into one empty part.
    subst nonempty
    exact getValidRule_plain plain read
  · rw [Validated, getValidRule_plain plain]
    · rw [split_joined rule.separated nonempty]
    · rwa [split_joined rule.separated nonempty]

/-- The text of a rule is no iCal string. -/
theorem IsRule.ne_iCal (rule : IsRule parts) (zone time : String) (kept : List String) :
    joined parts ≠ iCal zone time kept := by
  intro text
  refine rule.valued.2 (mem_of_joined rule.separated (by decide) ?_)
  unfold iCal at text
  simp only [text, String.toList_append, List.append_assoc]
  exact List.prefix_append ("DTSTART".toList ++ [';']) _

/-- A text that is taken for an iCal string is passed on as it is. -/
theorem getValidRule_taken {recurrence : String}
    (taken : recurrence.startsWith "DTSTART" = true) :
    getValidRule moment now recurrence timezone = .ok recurrence := if_pos taken

theorem not_validated (rule : IsRule parts)
    (taken : (joined parts).startsWith "DTSTART" = true) (zone start : String) :
    ¬ Validated moment now timezone parts zone start := by
  rw [Validated, getValidRule_taken taken]
  cases moment.format (some start) (some zone) with
  | error reason =>
      intro same
      cases same
  | ok time => exact fun same => rule.ne_iCal _ _ _ (Except.ok.inj same)

/-- Two orders of the parts of a rule make the same rule exactly where neither text starts with
`DTSTART`. -/
theorem sameRule_iff (rule : IsRule parts) (order : parts.Perm parts') :
    SameRule moment now timezone parts parts' ↔
      (joined parts).startsWith "DTSTART" = false ∧
        (joined parts').startsWith "DTSTART" = false := by
  have rule' := rule.perm order
  constructor
  · rintro ⟨zone, start, validated, validated', -⟩
    constructor
    · exact Bool.eq_false_iff.mpr fun taken => not_validated rule taken zone start validated
    · exact Bool.eq_false_iff.mpr fun taken => not_validated rule' taken zone start validated'
  · rintro ⟨plain, plain'⟩
    obtain ⟨zone, start, read, -⟩ := IsRule.read_some rule.valued (timezone.getD "UTC")
      (moment.toISOString now)
    have read' := (rule.read_perm order _).symm.trans read
    exact ⟨zone, start, validated_of_plain rule plain read, validated_of_plain rule' plain' read',
      order.filter _⟩

end

/-! ## Next runs -/

section

variable {library : RRuleLibrary} {moment : Moment} {now : Int} {timezone : Option String}
  {parts parts' : List String}

/-- The next runs of a rule that the library can read are the first ones that it finds. -/
theorem computeNextRuns_eq {recurrence : String} (filled : recurrence ≠ "") (startDate : Int)
    (count : Nat) :
    (computeNextRuns library moment now (some recurrence) timezone startDate count).toOption =
      ((parsedRule library moment now recurrence timezone).toOption.map library.between).map
        fun between => (between startDate (startDate + SIX_MONTHS_IN_MS) true).take
          (min count 30) := by
  rw [computeNextRuns, requireInterval_some filled]
  cases parsed : parsedRule library moment now recurrence timezone with
  | error reason => simp [bind, Except.bind, Except.toOption, parsed]
  | ok rrule => simp [bind, Except.bind, Except.toOption, parsed, pure, Except.pure]

/-- The text of a rule is empty in either order or in neither. -/
theorem joined_eq_empty (order : parts.Perm parts') (separated : ∀ part ∈ parts, ';' ∉ part.toList)
    (empty : joined parts = "") : joined parts' = "" := by
  by_cases nonempty : parts = []
  · subst nonempty
    rw [List.nil_perm.mp order]
    exact joined_nil
  · have pieces := split_joined separated nonempty
    rw [empty] at pieces
    have single : parts = [""] := pieces.symm
    rw [single, List.singleton_perm] at order
    rw [← order]
    rfl

/-- Two orders of the parts of a well-formed rule have the same next runs where neither text starts
with `DTSTART`. -/
theorem sameRuns_of_plain (unordered : library.Unordered) (formats : moment.OneLine)
    (zoned : ∀ zone ∈ timezone, OneLine zone) (rule : IsWellFormedRule parts)
    (order : parts.Perm parts') (plain : (joined parts).startsWith "DTSTART" = false)
    (plain' : (joined parts').startsWith "DTSTART" = false) :
    SameRuns library moment now timezone parts parts' := by
  have rule' := rule.toIsRule.perm order
  obtain ⟨zone, start, read, single⟩ := IsRule.read_some rule.valued (timezone.getD "UTC")
    (moment.toISOString now)
  have read' := (rule.toIsRule.read_perm order _).symm.trans read
  have validated : Validated moment now timezone parts zone start :=
    validated_of_plain rule.toIsRule plain read
  have validated' : Validated moment now timezone parts' zone start :=
    validated_of_plain rule' plain' read'
  have oneLine : OneLine zone := by
    refine single ?_ rule.oneLine
    cases timezone with
    | none => exact ⟨by decide, by decide⟩
    | some given => exact zoned given rfl
  intro startDate count
  by_cases empty : joined parts = ""
  · rw [empty, joined_eq_empty order rule.separated empty]
  · have filled : joined parts' ≠ "" := fun empty' =>
      empty (joined_eq_empty order.symm rule'.separated empty')
    rw [computeNextRuns_eq empty, computeNextRuns_eq filled]
    have found : (parsedRule library moment now (joined parts) timezone).toOption.map
          library.between =
        (parsedRule library moment now (joined parts') timezone).toOption.map library.between := by
      rw [parsedRule, parsedRule, validated, validated']
      cases formatted : moment.format (some start) (some zone) with
      | error reason => rfl
      | ok time =>
          refine unordered zone time _ _ oneLine (formats _ _ _ formatted) ?_ (order.filter _)
          intro part member
          have listed := (List.mem_filter.mp member).1
          exact ⟨fun empty => rule.filled (empty ▸ listed), rule.oneLine part listed⟩
    rw [found]

/-- Two orders of the parts of a well-formed rule make the same rule with the same next runs exactly
where neither text starts with `DTSTART`. -/
theorem reordered_iff (unordered : library.Unordered) (formats : moment.OneLine)
    (zoned : ∀ zone ∈ timezone, OneLine zone) (rule : IsWellFormedRule parts)
    (order : parts.Perm parts') :
    (SameRule moment now timezone parts parts' ∧
        SameRuns library moment now timezone parts parts') ↔
      (joined parts).startsWith "DTSTART" = false ∧
        (joined parts').startsWith "DTSTART" = false := by
  constructor
  · exact fun same => (sameRule_iff rule.toIsRule order).mp same.1
  · intro plain
    exact ⟨(sameRule_iff rule.toIsRule order).mpr plain,
      sameRuns_of_plain unordered formats zoned rule order plain.1 plain.2⟩

end

/-! ## A start date in the first place -/

/-- With a separator before each of its parts, a rule has the same characters in any order. -/
theorem joined_perm {rule rule' : List String} (order : rule.Perm rule') :
    (joined rule).toList.Perm (joined rule').toList := by
  have separators : ∀ rule : List String, rule ≠ [] →
      ';' :: (joined rule).toList = rule.flatMap fun part => ';' :: part.toList := by
    intro rule nonempty
    induction rule with
    | nil => contradiction
    | cons part rule ih =>
        cases rule with
        | nil => simp
        | cons next rule =>
            rw [List.flatMap_cons, ← ih (List.cons_ne_nil _ _)]
            simp
  by_cases nonempty : rule = []
  · subst nonempty
    rw [List.nil_perm.mp order]
  · have nonempty' : rule' ≠ [] := fun empty => nonempty (List.perm_nil.mp (empty ▸ order))
    rw [← List.perm_cons ';', separators rule nonempty, separators rule' nonempty']
    exact order.flatMap_right _

/-- A parser that knows one rule, with its characters in any order. -/
def oneRule (known : String) (runs : List Int) : RRuleLibrary where
  RRuleSet := Unit
  parse text :=
    if text.toList.Perm known.toList then .ok () else .error "Missing RRULE property"
  between _ first last _ := runs.filter fun run => first ≤ run ∧ run ≤ last

theorem unordered_oneRule (known : String) (runs : List Int) : (oneRule known runs).Unordered := by
  intro zone time rule rule' _ _ _ order
  have same : (iCal zone time rule).toList.Perm (iCal zone time rule').toList := by
    unfold iCal
    simp only [String.toList_append]
    exact (joined_perm order).append_left _
  have read : (iCal zone time rule).toList.Perm known.toList ↔
      (iCal zone time rule').toList.Perm known.toList := ⟨same.symm.trans, same.trans⟩
  simp only [oneRule, read]

/-- Two daily runs from 16:00:00 on 24 January 2024 on. -/
def dailyRule : RRuleLibrary :=
  oneRule (iCal "UTC" "20240124T160000" ["FREQ=DAILY", "COUNT=2"])
    [exactSecond, exactSecond + 86400000]

/-- The parts of that rule, with the start date at the end. -/
def startLast : List String :=
  ["FREQ=DAILY", "COUNT=2", "TZID=UTC", "DTSTART=20240124T160000"]

/-- The parts of that rule, with the start date in front. -/
def startFirst : List String :=
  ["DTSTART=20240124T160000", "FREQ=DAILY", "COUNT=2", "TZID=UTC"]

theorem isRule_startLast : IsRule startLast where
  separated := by decide +kernel
  oneZone := by decide +kernel
  oneStart := by decide +kernel
  valued := by decide +kernel

theorem isWellFormedRule_startLast : IsWellFormedRule startLast where
  toIsRule := isRule_startLast
  filled := by decide
  oneLine := by decide +kernel

/-- Of a date, the digits and the sign before the time are kept. -/
theorem oneLine_universalTime : universalTime.OneLine := by
  intro start zone time formatted
  obtain rfl := Except.ok.inj formatted
  have kept {char : Char} (listed : char ∈ (String.ofList
      (((start.getD "").toList.takeWhile (· ≠ '.')).filter
        fun sign => sign.isDigit ∨ sign = 'T')).toList) : char.isDigit ∨ char = 'T' := by
    rw [String.toList_ofList, List.mem_filter] at listed
    exact of_decide_eq_true listed.2
  exact ⟨fun listed => absurd (kept listed) (by decide),
    fun listed => absurd (kept listed) (by decide)⟩

theorem startFirst_taken : (joined startFirst).startsWith "DTSTART" = true := by decide +kernel

/-- The start date in front is not read, and such a rule has no next runs. -/
theorem start_date_first_unread :
    dailyRule.Unordered ∧ universalTime.OneLine ∧ IsWellFormedRule startLast ∧
      startLast.Perm startFirst ∧
      getValidRule universalTime exactSecond (joined startFirst) (some "UTC") =
        .ok (joined startFirst) ∧
      ¬ SameRule universalTime exactSecond (some "UTC") startLast startFirst ∧
      computeNextRuns dailyRule universalTime exactSecond (some (joined startLast)) (some "UTC")
        exactSecond 2 = .ok [exactSecond, exactSecond + 86400000] ∧
      computeNextRuns dailyRule universalTime exactSecond (some (joined startFirst)) (some "UTC")
        exactSecond 2 = .error "Missing RRULE property" := by
  have order : startLast.Perm startFirst := by decide
  refine ⟨unordered_oneRule _ _, oneLine_universalTime, isWellFormedRule_startLast, order, ?_, ?_,
    ?_, ?_⟩
  · exact getValidRule_taken startFirst_taken
  · intro same
    have plain := ((sameRule_iff isRule_startLast order).mp same).2
    exact Bool.false_ne_true (plain.symm.trans startFirst_taken)
  · decide +kernel
  · decide +kernel

/-- Without the start date in front, the zone and the start date may change places. -/
theorem daily_reordered :
    SameRule universalTime exactSecond (some "UTC") startLast
        ["FREQ=DAILY", "DTSTART=20240124T160000", "COUNT=2", "TZID=UTC"] ∧
      SameRuns dailyRule universalTime exactSecond (some "UTC") startLast
        ["FREQ=DAILY", "DTSTART=20240124T160000", "COUNT=2", "TZID=UTC"] :=
  (reordered_iff (unordered_oneRule _ _) oneLine_universalTime
    (fun zone given => by
      obtain rfl := Option.some.inj given
      exact ⟨by decide, by decide⟩)
    isWellFormedRule_startLast (by decide)).mpr ⟨by decide +kernel, by decide +kernel⟩

end Steveo.Scheduler
