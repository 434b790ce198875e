import Steveo.Scheduler.RuleOrder

/-!
# The time zone of the server

This file says when the start date of a rule is the same on servers of different time zones.  The
start date is written without an offset, so the date library reads it in the zone of the process,
and the instant it finds is then shown in the zone of the rule.
-/

namespace Steveo.Scheduler

/-- What the text of a date says. -/
inductive Reading
  /-- A text with an offset names an instant. -/
  | instant (time : Int)
  /-- A text without an offset is a wall-clock time, of whatever zone. -/
  | wallClock (wall : Int)

/-- The calendar and the database of time zones, which are the same on every server.  Wall-clock
times and offsets are in milliseconds, as instants are. -/
structure Calendar where
  toISOString : Int → String
  read : String → Option Reading
  /-- A wall-clock time as `YYYYMMDDTHHmmss`. -/
  stamp : Int → String
  /-- The offsets of a zone that the database knows. -/
  zone : String → Option (Int → Int)

/-- The time zone of a server process. -/
structure ServerZone where
  /-- The offset at an instant. -/
  offset : Int → Int
  /-- The instant that a wall-clock time is taken for. -/
  instant : Int → Int
  /-- A wall-clock time that occurs is taken for an instant at which it does. -/
  occurs : ∀ wall, (∃ time, time + offset time = wall) →
    instant wall + offset (instant wall) = wall

/-- The instant of a date. -/
def ServerZone.timeOf (server : ServerZone) : Reading → Int
  | .instant time => time
  | .wallClock wall => server.instant wall

/-- The date library in a server process at an instant. -/
def Calendar.moment (calendar : Calendar) (server : ServerZone) (now : Int) : Moment where
  toISOString := calendar.toISOString
  format date zone :=
    if zone.getD "" = "" then
      -- Without a name, `tz` returns the name of the zone that was set, and none was.
      .error "TypeError: Cannot read properties of undefined (reading 'format')"
    else
      match date.elim (some (.instant now)) calendar.read with
      | none => .ok "Invalid date"
      | some reading =>
          let time := server.timeOf reading
          -- A zone that is not known leaves the date in the zone of the process.
          let offset := (zone.bind calendar.zone).getD server.offset
          .ok (calendar.stamp (time + offset time))

/-- A text is the wall-clock time of one second. -/
structure Calendar.Stamps (calendar : Calendar) (text : String) (wall : Int) : Prop where
  read : calendar.read text = some (.wallClock wall)
  stamp : ∀ other, calendar.stamp other = text ↔ wall ≤ other ∧ other < wall + 1000

/-- A rule with a zone that is known and a start date. -/
structure IsZonedRule (calendar : Calendar) (parts : List String) (zone : String)
    (offset : Int → Int) (text : String) (wall : Int) : Prop extends IsRule parts where
  zoned : "TZID=" ++ zone ∈ parts
  started : "DTSTART=" ++ text ∈ parts
  known : calendar.zone zone = some offset
  stamps : calendar.Stamps text wall
  named : zone ≠ "" ∧ '=' ∉ zone.toList
  dated : '=' ∉ text.toList

/-- When the server takes it to be a wall-clock time, a zone shows that time, to the second. -/
def ServerZone.Shows (server : ServerZone) (offset : Int → Int) (wall : Int) : Prop :=
  wall ≤ server.instant wall + offset (server.instant wall) ∧
    server.instant wall + offset (server.instant wall) < wall + 1000

/-- A wall-clock time that occurs on the server is shown by a zone exactly where the two have the
same offset then, to the second. -/
theorem ServerZone.shows_iff {server : ServerZone} {wall : Int}
    (occurs : ∃ time, time + server.offset time = wall) (offset : Int → Int) :
    server.Shows offset wall ↔
      server.offset (server.instant wall) ≤ offset (server.instant wall) ∧
        offset (server.instant wall) < server.offset (server.instant wall) + 1000 := by
  have shown := server.occurs wall occurs
  unfold ServerZone.Shows
  omega

/-! ## Reading the zone and the start date -/

/-- The last part with the name of a zone decides the zone, and likewise the start date. -/
theorem foldl_readPart (parts : List String) (known : Option String × Option String) :
    parts.foldl readPart known =
      ((parts.filter (named "TZID")).foldl (fun _ part => valueOf part) known.1,
        (parts.filter (named "DTSTART")).foldl (fun _ part => valueOf part) known.2) := by
  induction parts generalizing known with
  | nil => rfl
  | cons part parts ih =>
      rw [List.foldl_cons, ih, readPart_eq, List.filter_cons, List.filter_cons]
      split_ifs <;> rfl

/-- The name and the value of a part. -/
theorem split_part {name value : String} (plain : '=' ∉ name.toList) (plain' : '=' ∉ value.toList) :
    split (name ++ "=" ++ value) '=' = [name, value] := by
  have pieces : (name ++ "=" ++ value).toList = name.toList ++ '=' :: value.toList := by simp
  rw [split, pieces, List.splitOn_append_cons_self_of_not_mem plain,
    List.splitOn_eq_singleton plain']
  simp

/-- The only part with a name decides what is read. -/
theorem filter_named {parts : List String} {name value : String} (plain : '=' ∉ name.toList)
    (plain' : '=' ∉ value.toList) (member : name ++ "=" ++ value ∈ parts)
    (one : (parts.filter (named name)).length ≤ 1) (before : Option String) :
    (parts.filter (named name)).foldl (fun _ part => valueOf part) before = some value := by
  have pieces := split_part plain plain'
  have kept : name ++ "=" ++ value ∈ parts.filter (named name) := by
    refine List.mem_filter.mpr ⟨member, ?_⟩
    simp [named, pieces]
  obtain ⟨only, same⟩ := List.length_eq_one_iff.mp (le_antisymm one (List.length_pos_of_mem kept))
  rw [same, List.mem_singleton] at kept
  rw [same, ← kept]
  simp [valueOf, pieces]

section

variable {library : RRuleLibrary} {calendar : Calendar} {parts : List String} {zone : String}
  {offset : Int → Int} {text : String} {wall now : Int} {timezone : Option String}

/-- A rule with a zone and a start date is read as such. -/
theorem IsZonedRule.read (rule : IsZonedRule calendar parts zone offset text wall)
    (known : Option String × Option String) :
    parts.foldl readPart known = (some zone, some text) := by
  rw [foldl_readPart, filter_named (by decide) rule.named.2 rule.zoned rule.oneZone,
    filter_named (by decide) rule.dated rule.started rule.oneStart]

/-- The start date of a rule as a server shows it in the zone of the rule. -/
theorem IsZonedRule.format_eq (rule : IsZonedRule calendar parts zone offset text wall)
    (server : ServerZone) (now : Int) :
    (calendar.moment server now).format (some text) (some zone) =
      .ok (calendar.stamp (server.instant wall + offset (server.instant wall))) := by
  simp [Calendar.moment, rule.named.1, rule.stamps.read, rule.known, ServerZone.timeOf]

theorem iCal_inj {time time' : String} {rule : List String} :
    iCal zone time rule = iCal zone time' rule ↔ time = time' := by
  unfold iCal
  simp only [String.append_right_inj, String.append_left_inj]

/-- A server makes the valid rule that starts at the given wall-clock time exactly where the text
does not start with `DTSTART` and the zone shows that time when the server takes it to be then. -/
theorem IsZonedRule.getValidRule_iff (rule : IsZonedRule calendar parts zone offset text wall)
    (server : ServerZone) :
    getValidRule (calendar.moment server now) now (joined parts) timezone =
        .ok (iCal zone text (parts.filter staysInRule)) ↔
      (joined parts).startsWith "DTSTART" = false ∧ server.Shows offset wall := by
  have format := rule.format_eq server now
  by_cases taken : (joined parts).startsWith "DTSTART" = true
  · rw [getValidRule_taken taken, Except.ok.injEq]
    simp [rule.toIsRule.ne_iCal, taken]
  · rw [Bool.not_eq_true] at taken
    have validated : Validated (calendar.moment server now) now timezone parts zone text :=
      validated_of_plain rule.toIsRule taken (rule.read _)
    rw [Validated, format] at validated
    rw [validated, Except.map, Except.ok.injEq, iCal_inj, rule.stamps.stamp]
    exact (and_iff_right taken).symm

/-- Two servers make the same valid rule, which starts at the given wall-clock time in the given
zone, and find the same next run. -/
def SameOnServers (library : RRuleLibrary) (calendar : Calendar) (server server' : ServerZone)
    (now : Int) (timezone : Option String) (parts : List String) (zone text : String) : Prop :=
  getValidRule (calendar.moment server now) now (joined parts) timezone =
      .ok (iCal zone text (parts.filter staysInRule)) ∧
    getValidRule (calendar.moment server' now) now (joined parts) timezone =
      .ok (iCal zone text (parts.filter staysInRule)) ∧
    computeNextRun library (calendar.moment server now) now (some (joined parts)) timezone =
      computeNextRun library (calendar.moment server' now) now (some (joined parts)) timezone

/-- The next run depends on the date library only through the valid rule. -/
theorem computeNextRun_congr {moment moment' : Moment} {recurrence : String}
    (same : getValidRule moment now recurrence timezone =
      getValidRule moment' now recurrence timezone) :
    computeNextRun library moment now (some recurrence) timezone =
      computeNextRun library moment' now (some recurrence) timezone := by
  have parsed : parsedRule library moment now recurrence timezone =
      parsedRule library moment' now recurrence timezone := by
    rw [parsedRule, parsedRule, same]
  by_cases filled : recurrence = ""
  · subst filled
    have refused (message : String) : requireInterval (some "") message = .error message := rfl
    simp only [computeNextRun, refused, bind, Except.bind]
  · simp only [computeNextRun, computeNextRuns, requireInterval_some filled, bind, Except.bind,
      parsed]

/-- Two servers agree on a rule with a zone and a start date exactly where its text does not start
with `DTSTART` and, when either of them takes it to be the start date, the zone shows that date. -/
theorem sameOnServers_iff (rule : IsZonedRule calendar parts zone offset text wall)
    (server server' : ServerZone) :
    SameOnServers library calendar server server' now timezone parts zone text ↔
      (joined parts).startsWith "DTSTART" = false ∧
        server.Shows offset wall ∧ server'.Shows offset wall := by
  rw [SameOnServers, rule.getValidRule_iff, rule.getValidRule_iff]
  constructor
  · rintro ⟨⟨plain, shows⟩, ⟨-, shows'⟩, -⟩
    exact ⟨plain, shows, shows'⟩
  · rintro ⟨plain, shows, shows'⟩
    refine ⟨⟨plain, shows⟩, ⟨plain, shows'⟩, computeNextRun_congr ?_⟩
    rw [rule.getValidRule_iff server |>.mpr ⟨plain, shows⟩,
      rule.getValidRule_iff server' |>.mpr ⟨plain, shows'⟩]

end

/-! ## A server in Sydney -/

/-- A zone without changes of its offset. -/
def ServerZone.fixed (offset : Int) : ServerZone where
  offset _ := offset
  instant wall := wall - offset
  occurs wall _ := by omega

/-- Eleven hours. -/
def sydneyOffset : Int := 39600000

/-- The calendar on 24 January 2024, at four in the afternoon in one zone or the other. -/
def januaryCalendar : Calendar where
  toISOString _ := "2024-01-24T15:59:59.999Z"
  read text := if text = "20240124T160000" then some (.wallClock exactSecond) else none
  stamp wall :=
    if exactSecond ≤ wall ∧ wall < exactSecond + 1000 then "20240124T160000"
    else "20240124T050000"
  zone name :=
    if name = "UTC" then some fun _ => 0
    else if name = "Australia/Sydney" then some fun _ => sydneyOffset
    else none

theorem stamps_januaryCalendar : januaryCalendar.Stamps "20240124T160000" exactSecond where
  read := rfl
  stamp other := by
    simp only [januaryCalendar]
    split_ifs with second
    · exact iff_of_true rfl second
    · exact iff_of_false (by decide) second

theorem isZonedRule_startLast : IsZonedRule januaryCalendar startLast "UTC" (fun _ => 0)
    "20240124T160000" exactSecond where
  toIsRule := isRule_startLast
  zoned := by decide
  started := by decide
  known := rfl
  stamps := stamps_januaryCalendar
  named := by decide
  dated := by decide

/-- Two daily runs from the given instant on. -/
def twiceDaily (first : Int) : { runs : List Int // runs.Pairwise (· ≤ ·) } :=
  ⟨[first, first + 86400000], List.pairwise_pair.mpr (Int.le_add_of_nonneg_right (by decide))⟩

/-- The rule of `startLast` as it is read in the two zones. -/
def januaryRules : RRuleLibrary :=
  listedRules fun text =>
    if text = "DTSTART;TZID=UTC:20240124T160000\nRRULE:FREQ=DAILY;COUNT=2" then
      some (twiceDaily exactSecond)
    else if text = "DTSTART;TZID=UTC:20240124T050000\nRRULE:FREQ=DAILY;COUNT=2" then
      some (twiceDaily (exactSecond - sydneyOffset))
    else
      none

/-- A server in Sydney starts the rule eleven hours too early, and its next run differs from that
of a server on universal time. -/
theorem sydney_starts_early :
    IsZonedRule januaryCalendar startLast "UTC" (fun _ => 0) "20240124T160000" exactSecond ∧
      getValidRule (januaryCalendar.moment (.fixed 0) (exactSecond - 1)) (exactSecond - 1)
        (joined startLast) none =
          .ok "DTSTART;TZID=UTC:20240124T160000\nRRULE:FREQ=DAILY;COUNT=2" ∧
      getValidRule (januaryCalendar.moment (.fixed sydneyOffset) (exactSecond - 1))
        (exactSecond - 1) (joined startLast) none =
          .ok "DTSTART;TZID=UTC:20240124T050000\nRRULE:FREQ=DAILY;COUNT=2" ∧
      computeNextRun januaryRules (januaryCalendar.moment (.fixed 0) (exactSecond - 1))
        (exactSecond - 1) (some (joined startLast)) none = .ok (some exactSecond) ∧
      computeNextRun januaryRules (januaryCalendar.moment (.fixed sydneyOffset) (exactSecond - 1))
        (exactSecond - 1) (some (joined startLast)) none =
          .ok (some (exactSecond - sydneyOffset + 86400000)) :=
  ⟨isZonedRule_startLast, by decide +kernel, by decide +kernel, by decide +kernel,
    by decide +kernel⟩

/-- Two servers on universal time agree on the rule. -/
theorem universal_servers_agree :
    SameOnServers januaryRules januaryCalendar (.fixed 0) (.fixed 0) (exactSecond - 1) none
      startLast "UTC" "20240124T160000" :=
  (sameOnServers_iff isZonedRule_startLast (.fixed 0) (.fixed 0)).mpr
    ⟨by decide +kernel, ⟨by decide, by decide⟩, by decide, by decide⟩

end Steveo.Scheduler
