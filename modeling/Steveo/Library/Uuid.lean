import Mathlib.Data.List.Basic

/-!
# Universally unique identifiers

A text is read as an identifier if it has 32 hexadecimal digits, with a hyphen allowed after each
group of four but the last, and with braces allowed around all of it.  Upper and lower case are the
same.  Random identifiers are written in lower case, in five blocks of digits.
-/

namespace Steveo

/-- Whether a character is a hexadecimal digit. -/
def hexDigit (char : Char) : Bool :=
  ('0' ≤ char ∧ char ≤ '9') || ('a' ≤ char ∧ char ≤ 'f') || ('A' ≤ char ∧ char ≤ 'F')

/-- An identifier, as its digits in lower case. -/
structure Uuid where
  digits : List Char
  size : digits.length = 32
  deriving DecidableEq

namespace Uuid

/-- Drop a hyphen at the beginning. -/
def skipHyphen : List Char → List Char
  | '-' :: rest => rest
  | text => text

/-- The digits of some groups at the beginning of a text, and the rest of it. -/
def readGroups : Nat → List Char → Option (List Char × List Char)
  | 0, text => some ([], text)
  | groups + 1, a :: b :: c :: d :: text =>
      if hexDigit a && hexDigit b && hexDigit c && hexDigit d then
        (readGroups groups (if groups = 0 then text else skipHyphen text)).map fun read =>
          (a :: b :: c :: d :: read.1, read.2)
      else
        none
  | _ + 1, _ => none

/-- Eight groups of digits that are followed by a given text. -/
def readDigits (text following : List Char) : Option (List Char) :=
  match readGroups 8 text with
  | some (digits, rest) => if rest = following then some digits else none
  | none => none

/-- What is read off a text with its braces, if it has any. -/
def readText : List Char → Option (List Char)
  | '{' :: text => readDigits text ['}']
  | text => readDigits text []

/-- Whether a text is a random identifier. -/
def isV4 (text : String) : Bool :=
  match text.toList.splitOn '-' with
  | [timeLow, timeMid, version, variant, node] =>
      [timeLow, timeMid, version, variant, node].map List.length = [8, 4, 4, 4, 12] &&
        (timeLow ++ timeMid ++ version ++ variant ++ node).all hexDigit &&
        version.head? = some '4' && variant.head?.any fun char => char ∈ ['8', '9', 'a', 'b']
  | _ => false

/-! ## Counting digits -/

theorem countP_skipHyphen (text : List Char) :
    (skipHyphen text).countP hexDigit = text.countP hexDigit := by
  rw [skipHyphen.eq_def]
  split
  · rename_i rest
    rw [List.countP_cons_of_neg (by decide)]
  · rfl

theorem skipHyphen_suffix (text : List Char) : skipHyphen text <:+ text := by
  rw [skipHyphen.eq_def]
  split
  · exact List.suffix_cons _ _
  · exact List.suffix_refl _

/-- Some groups that have been read are digits of the text, which begins with one of them. -/
theorem readGroups_spec {groups : Nat} {text digits rest : List Char}
    (read : readGroups groups text = some (digits, rest)) :
    digits.length = 4 * groups ∧ text.countP hexDigit = 4 * groups + rest.countP hexDigit ∧
      rest <:+ text ∧ (0 < groups → ∃ first ∈ text.head?, hexDigit first = true) := by
  induction groups generalizing text digits with
  | zero =>
      obtain ⟨rfl, rfl⟩ := Prod.mk.inj (Option.some.inj read)
      simp
  | succ groups induction =>
      rw [readGroups.eq_def] at read
      split at read
      · contradiction
      · rename_i count a b c d text same
        obtain rfl : groups = count := Nat.succ.inj same
        split at read
        · rename_i plain
          obtain ⟨⟨read', rest'⟩, found, equal⟩ := Option.map_eq_some_iff.mp read
          obtain ⟨rfl, rfl⟩ := Prod.mk.inj equal
          simp only [Bool.and_eq_true] at plain
          obtain ⟨⟨⟨first, second⟩, third⟩, fourth⟩ := plain
          obtain ⟨size, count, later, -⟩ := induction found
          have counted : text.countP hexDigit = 4 * groups + rest'.countP hexDigit := by
            split at count
            · exact count
            · rwa [countP_skipHyphen] at count
          have suffix : rest' <:+ text := by
            split at later
            · exact later
            · exact later.trans (skipHyphen_suffix text)
          refine ⟨?_, ?_, suffix.trans (List.suffix_append [a, b, c, d] text),
            fun _ => ⟨a, rfl, first⟩⟩
          · simp only [List.length_cons, size]
            omega
          · simp only [List.countP_cons, first, second, third, fourth, if_true, counted]
            omega
        · contradiction
      · contradiction

/-- A text that is read as digits has 32 of them and begins with one. -/
theorem readDigits_spec {text following digits : List Char}
    (read : readDigits text following = some digits) :
    digits.length = 32 ∧ text.countP hexDigit = 32 + following.countP hexDigit ∧
      following <:+ text ∧ ∃ first ∈ text.head?, hexDigit first = true := by
  rw [readDigits] at read
  split at read
  · rename_i found rest groups
    split at read
    · rename_i ending
      obtain rfl := Option.some.inj read
      obtain ⟨size, count, suffix, first⟩ := readGroups_spec groups
      exact ⟨size, ending ▸ count, ending ▸ suffix, first (by omega)⟩
    · contradiction
  · contradiction

theorem length_readText {text digits : List Char} (read : readText text = some digits) :
    digits.length = 32 := by
  rw [readText.eq_def] at read
  split at read
  · exact (readDigits_spec read).1
  · exact (readDigits_spec read).1

/-- The identifier that a text stands for. -/
def ofText (text : String) : Option Uuid :=
  match read : readText text.toList with
  | none => none
  | some digits => some ⟨digits.map Char.toLower, by rw [List.length_map, length_readText read]⟩

theorem ofText_eq_none_iff {text : String} : ofText text = none ↔ readText text.toList = none := by
  rw [ofText]
  split
  · rename_i unread
    exact ⟨fun _ => unread, fun _ => rfl⟩
  · rename_i digits read
    simp [read]

/-- An identifier as it is written out. -/
def text (uuid : Uuid) : String :=
  String.ofList <| ['-'].intercalate
    [uuid.digits.take 8, (uuid.digits.drop 8).take 4, (uuid.digits.drop 12).take 4,
      (uuid.digits.drop 16).take 4, uuid.digits.drop 20]

/-! ## Random identifiers behind other text -/

/-- A random identifier has 32 digits and ends with one. -/
theorem isV4_spec {text : String} (random : isV4 text = true) :
    text.toList.countP hexDigit = 32 ∧ ∃ last ∈ text.toList.getLast?, hexDigit last = true := by
  rw [isV4] at random
  split at random
  · rename_i timeLow timeMid version variant node blocks
    simp only [List.map_cons, List.map_nil, Bool.and_eq_true, decide_eq_true_eq,
      List.cons.injEq, and_true] at random
    obtain ⟨⟨⟨sizes, plain⟩, -⟩, -⟩ := random
    have joined : ['-'].intercalate (text.toList.splitOn '-') = text.toList :=
      List.intercalate_splitOn '-'
    have written : text.toList =
        timeLow ++ '-' :: (timeMid ++ '-' :: (version ++ '-' :: (variant ++ '-' :: node))) := by
      rw [← joined, blocks]
      simp [List.intercalate]
    have digits : (timeLow ++ timeMid ++ version ++ variant ++ node).countP hexDigit = 32 := by
      rw [List.countP_eq_length.mpr (List.all_eq_true.mp plain)]
      simp [sizes]
    constructor
    · have hyphen : hexDigit '-' = false := by decide
      simp only [List.countP_append] at digits
      simp only [written, List.countP_append, List.countP_cons, hyphen, Bool.false_eq_true,
        if_false]
      omega
    · have filled : node ≠ [] := by
        rintro rfl
        simp at sizes
      obtain ⟨earlier, last, rfl⟩ := (List.eq_nil_or_concat node).resolve_left filled
      have ends : text.toList = (timeLow ++ '-' :: (timeMid ++ '-' :: (version ++ '-' ::
          (variant ++ '-' :: earlier)))) ++ [last] := by
        simp [written]
      refine ⟨last, ?_, List.all_eq_true.mp plain last (by simp)⟩
      rw [ends, List.getLast?_concat]
      rfl
  · contradiction

/-- A text with a hyphen and a random identifier at its end is no identifier: it has too many
digits, or a character that is none of its own. -/
theorem readText_named (front : List Char) {uuid : String} (random : isV4 uuid = true) :
    readText (front ++ '-' :: uuid.toList) = none := by
  obtain ⟨count, last, ends, digit⟩ := isV4_spec random
  have total : (front ++ '-' :: uuid.toList).countP hexDigit = front.countP hexDigit + 32 := by
    rw [List.countP_append, List.countP_cons_of_neg (by decide), count]
  have ending : (front ++ '-' :: uuid.toList).getLast? = some last := by
    rw [List.getLast?_append, List.getLast?_cons, Option.mem_def.mp ends]
    rfl
  by_contra readable
  obtain ⟨digits, read⟩ := Option.ne_none_iff_exists'.mp readable
  rw [readText.eq_def] at read
  split at read
  · rename_i text braced
    obtain ⟨-, -, ⟨inner, rfl⟩, -⟩ := readDigits_spec read
    have closing : (front ++ '-' :: uuid.toList).getLast? = some '}' := by
      rw [braced, ← List.cons_append, List.getLast?_append]
      rfl
    obtain rfl := Option.some.inj (ending.symm.trans closing)
    contradiction
  · obtain ⟨-, exactly, -, first, begins, plain⟩ := readDigits_spec read
    cases front with
    | nil =>
        obtain rfl := Option.some.inj begins
        contradiction
    | cons char front =>
        obtain rfl := Option.some.inj begins
        rw [total, List.countP_cons_of_pos plain, List.countP_nil] at exactly
        omega

/-- A name in front of a random identifier never makes an identifier. -/
theorem ofText_named (name : String) {uuid : String} (random : isV4 uuid = true) :
    ofText (name ++ "-" ++ uuid) = none := by
  rw [ofText_eq_none_iff]
  simpa using readText_named name.toList random

end Uuid

end Steveo
