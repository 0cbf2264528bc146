import Mathlib.Algebra.Ring.Nat
import Mathlib.Data.List.Perm.Subperm
import Mathlib.Data.List.Nodup
import Mathlib.Data.Nat.Find
import Mathlib.Order.Monotone.Basic

/-!
# Titles of documents

A document of an unknown kind gets a title that no other tab has.  The loop that
looks for it edits one string in place: it drops the last character before it
appends the next number, which leaves the front of the last number behind as
soon as this has two digits.  The candidates are therefore numbered 0 to 10 and
then 111, 1112, 11113 and so on.
-/

namespace Protort
namespace Terminal

abbrev Text : Type := List Char

inductive DocumentKind where
  | unknown
  | deploy
  | app
deriving DecidableEq, Repr

/-- The tab of a widget, which is a number that no other one has. -/
structure Tab where
  widget : Nat
  text : Text
deriving DecidableEq, Repr

/-- `QString::number`. -/
def decimalNumeral (i : Nat) : Text :=
  Nat.toDigits 10 i

/-- What one iteration does to the candidate of the last one. -/
def editCandidate (i : Nat) (result : Text) : Text :=
  let chopped := if 1 < i then result.dropLast else result
  if 0 < i then chopped ++ decimalNumeral i else chopped

/-- The inner loop, which passes over the document's own tab. -/
def isUnique (tabs : List Tab) (doc : Nat) (result : Text) : Bool :=
  tabs.all (fun tab => decide (tab.widget = doc ∨ result ≠ tab.text))

/-- The outer loop, if it ends after so many iterations. -/
def titleLoop (tabs : List Tab) (doc : Nat) (fuel i : Nat) (result : Text) :
    Option Text :=
  match fuel with
  | 0 => none
  | fuel + 1 =>
      let candidate := editCandidate i result
      if isUnique tabs doc candidate then
        some candidate
      else
        titleLoop tabs doc fuel (i + 1) candidate

/-- `base` is the translated title of an untitled document. -/
def fixedWindowTitle (base : Text) (tabs : List Tab) (doc : Nat)
    (kind : DocumentKind) (fileName : Text) (fuel : Nat) : Option Text :=
  match kind with
  | DocumentKind.app => some fileName
  | DocumentKind.deploy => some fileName
  | DocumentKind.unknown => titleLoop tabs doc fuel 0 base

/-!
## What the title is to be
-/

def otherTexts (tabs : List Tab) (doc : Nat) : List Text :=
  (tabs.filter (fun tab => decide (tab.widget ≠ doc))).map (fun tab => tab.text)

def numbered (base : Text) (k : Nat) : Text :=
  if k = 0 then base else base ++ decimalNumeral k

/-- The least number whose title no other tab has. -/
structure LeastFree (base : Text) (taken : List Text) (k : Nat) : Prop where
  free : numbered base k ∉ taken
  least : forall j, j < k -> numbered base j ∈ taken

/-- The number that the candidate of an iteration ends in: the one before it
without its last digit, and then the number of the iteration. -/
def candidateNumber (i : Nat) : Nat :=
  match i with
  | 0 => 0
  | i + 1 =>
      candidateNumber i / 10 * 10 ^ (decimalNumeral (i + 1)).length + (i + 1)

/-!
## Numerals
-/

theorem decimalNumeral_ne_nil (i : Nat) : decimalNumeral i ≠ [] :=
  Nat.toDigits_ne_nil

theorem decimalNumeral_injective {i j : Nat}
    (h : decimalNumeral i = decimalNumeral j) : i = j := by
  unfold decimalNumeral at h
  calc i = Nat.ofDigitChars 10 (Nat.toDigits 10 i) 0 :=
        Nat.ofDigitChars_ten_toDigits.symm
    _ = Nat.ofDigitChars 10 (Nat.toDigits 10 j) 0 := by rw [h]
    _ = j := Nat.ofDigitChars_ten_toDigits

theorem numbered_injective {base : Text} {i j : Nat}
    (h : numbered base i = numbered base j) : i = j := by
  unfold numbered at h
  split_ifs at h with hi hj hj
  · rw [hi, hj]
  · exact absurd (List.append_right_eq_self.mp h.symm)
      (decimalNumeral_ne_nil j)
  · exact absurd (List.append_right_eq_self.mp h)
      (decimalNumeral_ne_nil i)
  · exact decimalNumeral_injective (List.append_cancel_left h)

theorem dropLast_decimalNumeral {n : Nat} (h : 10 <= n) :
    (decimalNumeral n).dropLast = decimalNumeral (n / 10) := by
  unfold decimalNumeral
  rw [Nat.toDigits_of_base_le (by omega) h, List.dropLast_concat]

theorem dropLast_decimalNumeral_of_lt {n : Nat} (h : n < 10) :
    (decimalNumeral n).dropLast = [] := by
  unfold decimalNumeral
  rw [Nat.toDigits_of_lt_base h]
  rfl

/-- A numeral in front of another one is a numeral. -/
theorem decimalNumeral_append {n : Nat} (hn : 0 < n) (d : Nat) :
    decimalNumeral n ++ decimalNumeral d =
      decimalNumeral (n * 10 ^ (decimalNumeral d).length + d) := by
  induction d using Nat.strongRecOn with
  | ind d ih =>
      by_cases hd : d < 10
      · have hlength : (decimalNumeral d).length = 1 := by
          unfold decimalNumeral
          rw [Nat.toDigits_of_lt_base hd]
          rfl
        rw [hlength, Nat.pow_one, Nat.mul_comm]
        exact Nat.toDigits_append_toDigits (by omega) hn hd
      · have hsplit : decimalNumeral d =
            decimalNumeral (d / 10) ++ decimalNumeral (d % 10) := by
          unfold decimalNumeral
          rw [Nat.toDigits_of_base_le (by omega) (Nat.not_lt.mp hd),
            Nat.toDigits_of_lt_base (Nat.mod_lt d (by omega))]
        have hone : (decimalNumeral (d % 10)).length = 1 := by
          unfold decimalNumeral
          rw [Nat.toDigits_of_lt_base (Nat.mod_lt d (by omega))]
          rfl
        have hfront := ih (d / 10) (by omega)
        have hpos : 0 < n * 10 ^ (decimalNumeral (d / 10)).length + d / 10 := by
          have := Nat.mul_pos hn
            (Nat.pow_pos (n := (decimalNumeral (d / 10)).length)
              (show 0 < 10 by omega))
          omega
        have hlast : decimalNumeral
              (n * 10 ^ (decimalNumeral (d / 10)).length + d / 10) ++
                decimalNumeral (d % 10) =
            decimalNumeral (10 *
              (n * 10 ^ (decimalNumeral (d / 10)).length + d / 10) +
                d % 10) :=
          Nat.toDigits_append_toDigits (by omega) hpos
            (Nat.mod_lt d (by omega))
        have hlength : (decimalNumeral d).length =
            (decimalNumeral (d / 10)).length + 1 := by
          rw [hsplit, List.length_append, hone]
        rw [hlength, hsplit, ← List.append_assoc, hfront, hlast]
        congr 1
        rw [Nat.pow_succ]
        have := Nat.div_add_mod d 10
        rw [Nat.mul_add, ← Nat.mul_assoc, Nat.mul_comm 10 n, Nat.mul_assoc n 10,
          Nat.mul_comm 10 (10 ^ _)]
        omega

/-!
## Candidates
-/

theorem candidateNumber_small :
    forall i, i < 11 -> candidateNumber i = i := by
  decide

theorem candidateNumber_lt_succ (i : Nat) :
    candidateNumber i < candidateNumber (i + 1) := by
  by_cases hsmall : i < 10
  · rw [candidateNumber_small i (by omega),
      candidateNumber_small (i + 1) (by omega)]
    omega
  · have hlength : 2 <= (decimalNumeral (i + 1)).length := by
      by_contra hshort
      have hle := (Nat.length_toDigits_le_iff (b := 10) (n := i + 1) (k := 1)
        (by omega) (by omega)).mp (by unfold decimalNumeral at hshort; omega)
      omega
    have hpow : 10 ^ 2 <= 10 ^ (decimalNumeral (i + 1)).length :=
      Nat.pow_le_pow_right (by omega) hlength
    have hmul := Nat.mul_le_mul_left (candidateNumber i / 10) hpow
    rw [candidateNumber]
    omega

theorem candidateNumber_strictMono : StrictMono candidateNumber :=
  strictMono_nat_of_lt_succ candidateNumber_lt_succ

theorem editCandidate_numbered (base : Text) (i : Nat) :
    editCandidate (i + 1) (numbered base (candidateNumber i)) =
      numbered base (candidateNumber (i + 1)) := by
  have hnext : candidateNumber (i + 1) ≠ 0 := by
    have := candidateNumber_lt_succ i
    omega
  unfold editCandidate
  rw [if_pos (Nat.succ_pos i)]
  cases i with
  | zero => rfl
  | succ i =>
      have hthis : candidateNumber (i + 1) ≠ 0 := by
        have := candidateNumber_lt_succ i
        omega
      unfold numbered
      rw [if_pos (by omega), if_neg hthis, if_neg hnext,
        List.dropLast_append_of_ne_nil (decimalNumeral_ne_nil _),
        List.append_assoc]
      have hsucc : candidateNumber (i + 1 + 1) =
          candidateNumber (i + 1) / 10 *
            10 ^ (decimalNumeral (i + 1 + 1)).length + (i + 1 + 1) := rfl
      congr 1
      rw [hsucc]
      by_cases hlt : candidateNumber (i + 1) < 10
      · rw [dropLast_decimalNumeral_of_lt hlt, Nat.div_eq_of_lt hlt,
          Nat.zero_mul, Nat.zero_add, List.nil_append]
      · have hge := Nat.not_lt.mp hlt
        rw [dropLast_decimalNumeral hge]
        exact decimalNumeral_append (Nat.div_pos hge (by omega)) (i + 1 + 1)

/-!
## The loop
-/

section Loop

variable {base : Text} {tabs : List Tab} {doc : Nat}

theorem isUnique_iff (result : Text) :
    isUnique tabs doc result = true <-> result ∉ otherTexts tabs doc := by
  unfold isUnique otherTexts
  simp only [List.all_eq_true, decide_eq_true_eq, List.mem_map,
    List.mem_filter, not_exists, not_and, and_imp, or_iff_not_imp_left]
  exact forall_congr' fun tab => forall_congr' fun _ => forall_congr' fun _ =>
    not_congr eq_comm

theorem titleLoop_eq {fuel i j : Nat} {result : Text}
    (hstart : editCandidate i result = numbered base (candidateNumber i))
    (hij : i <= j) (hfuel : j < i + fuel)
    (hfree : numbered base (candidateNumber j) ∉ otherTexts tabs doc)
    (htaken : forall k, k < j ->
      numbered base (candidateNumber k) ∈ otherTexts tabs doc) :
    titleLoop tabs doc fuel i result =
      some (numbered base (candidateNumber j)) := by
  induction fuel generalizing i result with
  | zero => omega
  | succ fuel ih =>
      unfold titleLoop
      simp only [hstart, isUnique_iff]
      rcases Nat.eq_or_lt_of_le hij with rfl | hlt
      · rw [if_pos hfree]
      · rw [if_neg (not_not.mpr (htaken i hlt))]
        exact ih (editCandidate_numbered base i) hlt (by omega)

/-- The candidates are all different, so that one more of them than there are
tabs does not fit into these. -/
theorem exists_firstFree (base : Text) (taken : List Text) :
    exists j, j <= taken.length ∧ numbered base (candidateNumber j) ∉ taken ∧
      forall k, k < j -> numbered base (candidateNumber k) ∈ taken := by
  have hexists : exists j, j <= taken.length ∧
      numbered base (candidateNumber j) ∉ taken := by
    by_contra hall
    have hnodup : ((List.range (taken.length + 1)).map
        (fun j => numbered base (candidateNumber j))).Nodup := by
      apply List.nodup_range.map
      intro i j heq
      exact candidateNumber_strictMono.injective (numbered_injective heq)
    have htaken : (List.range (taken.length + 1)).map
        (fun j => numbered base (candidateNumber j)) ⊆ taken := by
      intro title htitle
      rcases List.mem_map.mp htitle with ⟨j, hj, rfl⟩
      have hle := Nat.le_of_lt_succ (List.mem_range.mp hj)
      exact not_not.mp (fun hfree => hall ⟨j, hle, hfree⟩)
    have hlength := (hnodup.subperm htaken).length_le
    rw [List.length_map, List.length_range] at hlength
    omega
  rcases Nat.find_spec hexists with ⟨hle, hfree⟩
  refine ⟨Nat.find hexists, hle, hfree, ?_⟩
  intro k hk
  exact not_not.mp (fun hfree =>
    Nat.find_min hexists hk ⟨Nat.le_trans (Nat.le_of_lt hk) hle, hfree⟩)

/-- The loop ends after one iteration more than there are other tabs, if not
before.  The title has the least number that is free exactly when this is one
that a candidate has. -/
theorem untitled_leastFree_iff (base fileName : Text) (tabs : List Tab)
    (doc : Nat) :
    exists title,
      (forall fuel, (otherTexts tabs doc).length < fuel ->
        fixedWindowTitle base tabs doc DocumentKind.unknown fileName fuel =
          some title) ∧
      ((exists k, LeastFree base (otherTexts tabs doc) k ∧
          title = numbered base k) <->
        exists i, LeastFree base (otherTexts tabs doc) (candidateNumber i)) := by
  rcases exists_firstFree base (otherTexts tabs doc) with
    ⟨j, hle, hfree, htaken⟩
  refine ⟨numbered base (candidateNumber j), ?_, ?_⟩
  · intro fuel hfuel
    exact titleLoop_eq rfl (Nat.zero_le j) (by omega) hfree htaken
  · constructor
    · intro h
      rcases h with ⟨k, hk, htitle⟩
      rw [← numbered_injective htitle] at hk
      exact ⟨j, hk⟩
    · intro h
      rcases h with ⟨i, hi⟩
      have hji : j = i := by
        rcases Nat.lt_trichotomy j i with hlt | heq | hgt
        · exact absurd (hi.least _ (candidateNumber_strictMono hlt)) hfree
        · exact heq
        · exact absurd (htaken i hgt) hi.free
      exact ⟨candidateNumber i, hi, by rw [hji]⟩

end Loop

/-- A base title and the first ten numbers after it are taken; the twelfth tab
is the document itself. -/
def elevenUntitled : List Tab :=
  (List.range 11).map (fun k => ⟨k, numbered ['N'] k⟩) ++ [⟨11, ['x']⟩]

/-- The title gets the number 111, and 11 is free. -/
theorem elevenUntitled_skips :
    fixedWindowTitle ['N'] elevenUntitled 11 DocumentKind.unknown [] 12 =
      some ['N', '1', '1', '1'] ∧
    LeastFree ['N'] (otherTexts elevenUntitled 11) 11 ∧
    numbered ['N'] 11 = ['N', '1', '1'] := by
  refine ⟨by decide +kernel, ⟨by decide +kernel, by decide +kernel⟩,
    by decide +kernel⟩

end Terminal
end Protort
