import Binnacle.Text
import Mathlib.Data.Bool.Basic

/-!
# Generated names (`internal/resources/resolve.go`)

`CleanGeneratedName` cuts generated parts off the end of a name until none is left, and then
trims what is left.

- `stripGenerated`: the loop; each turn shortens the name;
- `cleaned_name_final_iff`: cleaning is final unless the last trimming brings up white space or
  another generated part.

Names are lists of characters.
-/

namespace Binnacle.Resources

def isSeparator (c : Char) : Bool := c = '-' || c = '_'

def isHex (c : Char) : Bool := c.isDigit || c.toLower ∈ "abcdef".toList

/-- `uuidPart` (resolve.go:21). -/
def uuidPart (s : List Char) : Bool :=
  (s.splitOn '-').map List.length = [8, 4, 4, 4, 12] && s.all fun c => c = '-' || isHex c

/-- `timestampPart` (resolve.go:23). -/
def timestampPart (s : List Char) : Bool := 10 ≤ s.length && s.length ≤ 17 && s.all Char.isDigit

/-- `opaquePart` (resolve.go:24). Without case, the long s and the sign of Kelvin are letters. -/
def opaquePart (s : List Char) : Bool :=
  20 ≤ s.length && s.all fun c => c.isAlphanum || c = 'ſ' || c = 'K'

/-- `isGeneratedPart` (resolve.go:142-150). -/
def isGeneratedPart (s : List Char) : Bool :=
  uuidPart s || timestampPart s || (opaquePart s && s.any Char.isDigit)

/-- `uuidSuffix.ReplaceAllString(value, "")` (resolve.go:22): a match takes the last 37
characters. -/
def cutUUID (s : List Char) : List Char :=
  match s.drop (s.length - 37) with
  | c :: part => if isSeparator c && uuidPart part then s.take (s.length - 37) else s
  | [] => s

def cutLast (s : List Char) : List Char × List Char :=
  ((s.rdropWhile fun c => !isSeparator c).dropLast, s.rtakeWhile fun c => !isSeparator c)

def EndsGenerated (s : List Char) : Prop :=
  ∃ front c part, isSeparator c = true ∧ isGeneratedPart part = true ∧ s = front ++ c :: part

theorem cutUUID_spec {s : List Char} (h : cutUUID s ≠ s) :
    ∃ c part, isSeparator c = true ∧ uuidPart part = true ∧ s = cutUUID s ++ c :: part := by
  unfold cutUUID at h ⊢
  split at h
  · next c part hdrop =>
    split at h
    · next hmatch =>
      obtain ⟨hc, hpart⟩ := Bool.and_eq_true_iff.mp hmatch
      refine ⟨c, part, hc, hpart, ?_⟩
      rw [if_pos hmatch, ← hdrop, List.take_append_drop]
    · exact absurd rfl h
  · exact absurd rfl h

theorem cutLast_spec {s : List Char} (h : (cutLast s).1 ≠ []) :
    ∃ c, isSeparator c = true ∧ s = (cutLast s).1 ++ c :: (cutLast s).2 := by
  have hfront : (s.rdropWhile fun c => !isSeparator c) ≠ [] := by
    intro hnil
    exact h (by rw [cutLast, hnil]; rfl)
  refine ⟨_, by simpa using List.rdropWhile_last_not _ s hfront, ?_⟩
  rw [cutLast, List.append_cons, List.dropLast_append_getLast hfront]
  exact List.rdropWhile_append_rtakeWhile.symm

/-- The loop of `CleanGeneratedName` (resolve.go:106-116). -/
def stripGenerated (s : List Char) : List Char :=
  if cutUUID s ≠ s ∧ cutUUID s ≠ [] then stripGenerated (cutUUID s)
  else if (cutLast s).1 = [] ∨ isGeneratedPart (cutLast s).2 = false then s
  else stripGenerated (cutLast s).1
termination_by s.length
decreasing_by
  · next h =>
    obtain ⟨c, part, -, -, hs⟩ := cutUUID_spec h.1
    rw [hs, List.length_append, List.length_cons, ← hs]
    omega
  · next h =>
    obtain ⟨c, -, hs⟩ := cutLast_spec (not_or.mp h).1
    have hlength := congrArg List.length hs
    rw [List.length_append, List.length_cons] at hlength
    omega

/-- `readable` (resolve.go:120-126). -/
def readable (s : List Char) : List Char :=
  let s := trim isSeparator (trim isSpace s)
  if s = [] ∨ isGeneratedPart s = true then [] else s

/-- `CleanGeneratedName` (resolve.go:104-118). -/
def cleanGeneratedName (s : List Char) : List Char :=
  readable (stripGenerated (trim isSpace s))

/-! ## Fixed points -/

theorem trim_sublist (p : Char → Bool) (s : List Char) : (trim p s).Sublist s :=
  (List.rdropWhile_prefix p _).sublist.trans (List.dropWhile_suffix p).sublist

def Bare (p : Char → Bool) (t : List Char) : Prop :=
  (∀ c ∈ t.head?, p c = false) ∧ ∀ c ∈ t.getLast?, p c = false

theorem last_rdropWhile {p : Char → Bool} {y : List Char} {c : Char}
    (h : c ∈ (y.rdropWhile p).getLast?) : p c = false := by
  have hne : y.rdropWhile p ≠ [] := by
    intro hnil
    simp [hnil] at h
  rw [List.getLast?_eq_getLast_of_ne_nil hne, Option.mem_some_iff] at h
  rw [← h, Bool.eq_false_iff]
  exact List.rdropWhile_last_not p y hne

theorem trim_eq_iff {p : Char → Bool} {s t : List Char} :
    trim p s = t ↔ ∃ a b, s = a ++ t ++ b ∧ (∀ c ∈ a, p c = true) ∧ (∀ c ∈ b, p c = true) ∧
      Bare p t := by
  constructor
  · rintro rfl
    refine ⟨s.takeWhile p, (s.dropWhile p).rtakeWhile p, ?_, fun _ => List.mem_takeWhile_imp,
      fun _ => List.mem_rtakeWhile_imp, fun c hc => ?_, fun c hc => ?_⟩
    · rw [List.append_assoc, trim, List.rdropWhile_append_rtakeWhile,
        List.takeWhile_append_dropWhile]
    · -- the end that is left begins as it did before the other end was trimmed
      obtain ⟨rest, hrest⟩ : trim p s <+: s.dropWhile p := List.rdropWhile_prefix p _
      have hhead := List.head?_dropWhile_not p s
      rw [← hrest, List.head?_append, Option.mem_def.mp hc, Option.some_or] at hhead
      simpa using hhead
    · exact last_rdropWhile hc
  · rintro ⟨a, b, rfl, ha, hb, hhead, hlast⟩
    cases t with
    | nil =>
      have hall : (a ++ [] ++ b).dropWhile p = [] :=
        List.dropWhile_eq_nil_iff.mpr fun c hc => by
          rcases List.mem_append.mp hc with hc | hc
          · exact ha c (by simpa using hc)
          · exact hb c hc
      rw [trim, hall, List.rdropWhile_nil]
    | cons d t =>
      have hd : ¬ p d = true := by simpa using hhead d rfl
      rw [trim, List.append_assoc, List.dropWhile_append_of_pos ha, List.cons_append,
        List.dropWhile_cons_of_neg hd, ← List.cons_append]
      rw [List.rdropWhile, List.reverse_append,
        List.dropWhile_append_of_pos fun c hc => hb c (List.mem_reverse.mp hc)]
      have hself := List.rdropWhile_eq_self_iff (p := p) (l := d :: t)
      exact hself.mpr fun hl => by simpa using hlast _ (List.getLast?_eq_getLast_of_ne_nil hl)

theorem trim_trim (p : Char → Bool) (s : List Char) : trim p (trim p s) = trim p s := by
  obtain ⟨-, -, -, -, -, hbare⟩ := trim_eq_iff.mp (rfl : trim p s = trim p s)
  exact trim_eq_iff.mpr ⟨[], [], by simp, by simp, by simp, hbare⟩

theorem stripGenerated_shortens (s : List Char) : stripGenerated s <+: s := by
  fun_induction stripGenerated s with
  | case1 s h ih =>
    obtain ⟨c, part, -, -, hs⟩ := cutUUID_spec h.1
    exact ih.trans ⟨_, hs.symm⟩
  | case2 s _ _ => exact List.prefix_refl s
  | case3 s _ h ih =>
    obtain ⟨c, -, hs⟩ := cutLast_spec (not_or.mp h).1
    exact ih.trans ⟨_, hs.symm⟩

theorem stripGenerated_eq_self {s : List Char} (h : ¬ EndsGenerated s) : stripGenerated s = s := by
  fun_cases stripGenerated s with
  | case1 hcut =>
    obtain ⟨c, part, hc, hpart, hs⟩ := cutUUID_spec hcut.1
    exact absurd ⟨_, c, part, hc, by rw [isGeneratedPart, hpart]; rfl, hs⟩ h
  | case2 => rfl
  | case3 _ hlast =>
    obtain ⟨hfront, hpart⟩ := not_or.mp hlast
    obtain ⟨c, hc, hs⟩ := cutLast_spec hfront
    exact absurd ⟨_, c, _, hc, Bool.eq_true_of_not_eq_false hpart, hs⟩ h

theorem clean_sublist (s : List Char) : (cleanGeneratedName s).Sublist (trim isSpace s) := by
  have hstrip := (stripGenerated_shortens (trim isSpace s)).sublist
  unfold cleanGeneratedName readable
  dsimp only
  split
  · exact List.nil_sublist _
  · exact ((trim_sublist _ _).trans (trim_sublist _ _)).trans hstrip

def trimmedName (s : List Char) : List Char :=
  trim isSeparator (trim isSpace (stripGenerated (trim isSpace s)))

theorem clean_eq_self {s : List Char} (hspace : trim isSpace s = s) (hsep : trim isSeparator s = s)
    (hends : ¬ EndsGenerated s) (hkept : s = [] ∨ isGeneratedPart s = false) :
    cleanGeneratedName s = s := by
  unfold cleanGeneratedName readable
  rw [hspace, stripGenerated_eq_self hends, hspace, hsep]
  dsimp only
  split
  · next h =>
    rcases hkept with hnil | hpart
    · exact hnil.symm
    · rw [hpart] at h
      exact (h.resolve_right Bool.false_ne_true).symm
  · rfl

/-- Cleaning is final, and cuts every generated part off the end, exactly if the last trimming
leaves nothing readable, or a name that can be neither trimmed nor cut. -/
theorem cleaned_iff_trimmed (s : List Char) :
    (cleanGeneratedName (cleanGeneratedName s) = cleanGeneratedName s ∧
      (cleanGeneratedName s = [] ∨ ¬ EndsGenerated (cleanGeneratedName s))) ↔
    trimmedName s = [] ∨ isGeneratedPart (trimmedName s) = true ∨
      (trim isSpace (trimmedName s) = trimmedName s ∧ ¬ EndsGenerated (trimmedName s)) := by
  have hempty : ¬ EndsGenerated [] := by
    rintro ⟨front, c, part, -, -, hs⟩
    exact List.append_ne_nil_of_right_ne_nil front (List.cons_ne_nil c part) hs.symm
  by_cases hgone : trimmedName s = [] ∨ isGeneratedPart (trimmedName s) = true
  · have hclean : cleanGeneratedName s = [] := if_pos hgone
    rw [hclean]
    refine iff_of_true ⟨clean_eq_self rfl rfl hempty (.inl rfl), .inl rfl⟩ ?_
    exact hgone.imp_right .inl
  · have hclean : cleanGeneratedName s = trimmedName s := if_neg hgone
    obtain ⟨hne, hpart⟩ := not_or.mp hgone
    rw [hclean]
    constructor
    · rintro ⟨hfixed, hends⟩
      -- cleaning takes at least the white space off
      have hlength := (clean_sublist (trimmedName s)).length_le
      rw [hfixed] at hlength
      exact .inr (.inr ⟨(trim_sublist isSpace _).eq_of_length_le hlength, hends.resolve_left hne⟩)
    · intro h
      obtain ⟨hspace, hends⟩ := (h.resolve_left hne).resolve_left hpart
      refine ⟨clean_eq_self hspace (trim_trim _ _) hends ?_, .inr hends⟩
      exact .inr (Bool.eq_false_of_not_eq_true hpart)

/-! ## What the loop cuts -/

theorem not_mem_of_mem_splitOn {d : Char} {l g : List Char} (h : g ∈ l.splitOn d) : d ∉ g := by
  induction l generalizing g with
  | nil => simp_all
  | cons x l ih =>
    rw [List.splitOn_cons_eq_if_modifyHead] at h
    split at h
    · rcases List.mem_cons.mp h with rfl | h
      · exact List.not_mem_nil
      · exact ih h
    · next hx =>
      obtain ⟨g₀, gs, hgs⟩ := List.exists_cons_of_ne_nil (List.splitOn_ne_nil d l)
      rw [hgs] at h ih
      rcases List.mem_cons.mp h with rfl | h
      · have hne : x ≠ d := by simpa using hx
        simpa [hne.symm] using ih List.mem_cons_self
      · exact ih (List.mem_cons_of_mem _ h)

theorem plain_of_range {c : Char} (h : 48 ≤ c.toNat ∧ c.toNat ≤ 57 ∨ 65 ≤ c.toNat ∧ c.toNat ≤ 90 ∨
      97 ≤ c.toNat ∧ c.toNat ≤ 122 ∨ c.toNat = 0x17f ∨ c.toNat = 0x212a) :
    isSpace c = false ∧ isSeparator c = false := by
  refine ⟨by simp [isSpace]; omega, ?_⟩
  have hne : c ≠ '-' ∧ c ≠ '_' := by
    constructor <;> rintro rfl <;> revert h <;> decide
  simp [isSeparator, hne]

theorem plain_of_alphanum {c : Char} (h : c.isAlphanum = true) :
    isSpace c = false ∧ isSeparator c = false := by
  refine plain_of_range ?_
  replace h : (decide (c.val ≥ 'A'.val ∧ c.val ≤ 'Z'.val) || c.val ≥ 'a'.val && c.val ≤ 'z'.val ||
      c.val ≥ '0'.val && c.val ≤ '9'.val) = true := h
  simp only [Bool.or_eq_true, Bool.and_eq_true, decide_eq_true_eq, UInt32.le_iff_toNat_le,
    ge_iff_le] at h
  have hval : c.toNat = c.val.toNat := rfl
  have hA : 'A'.val.toNat = 65 := rfl
  have hZ : 'Z'.val.toNat = 90 := rfl
  have ha : 'a'.val.toNat = 97 := rfl
  have hz : 'z'.val.toNat = 122 := rfl
  have h0 : '0'.val.toNat = 48 := rfl
  have h9 : '9'.val.toNat = 57 := rfl
  omega

theorem plain_of_hex {c : Char} (h : isHex c = true) :
    isSpace c = false ∧ isSeparator c = false := by
  refine plain_of_alphanum ?_
  rcases Bool.or_eq_true_iff.mp h with hdigit | hletter
  · simp [Char.isAlphanum, hdigit]
  · by_cases hupper : c.isUpper = true
    · show (c.isUpper || c.isLower || c.isDigit) = true
      simp [hupper]
    · have hsame : c.toLower = c :=
        dif_neg fun hrange => hupper (decide_eq_true hrange)
      rw [hsame, decide_eq_true_iff] at hletter
      have hall : ("abcdef".toList.all Char.isAlphanum) = true := by decide
      exact List.all_eq_true.mp hall c hletter

section Parts

variable {part front u r l v w : List Char} {c : Char}

theorem uuidPart_groups (h : uuidPart part = true) :
    part.length = 36 ∧ (∀ d ∈ part, isSpace d = false) ∧
      ∃ x w y, part = x ++ '-' :: (w ++ '-' :: y) ∧ w.length = 4 ∧ y.length = 12 ∧
        ∀ d ∈ w ++ y, isHex d = true := by
  obtain ⟨hlengths, hchars⟩ := Bool.and_eq_true_iff.mp h
  have hlengths : (part.splitOn '-').map List.length = [8, 4, 4, 4, 12] := by simpa using hlengths
  have hhex : ∀ d ∈ part, d = '-' ∨ isHex d = true := by simpa [List.all_eq_true] using hchars
  have hwhole : ['-'].intercalate (part.splitOn '-') = part := List.intercalate_splitOn '-'
  have hfree : ∀ g ∈ part.splitOn '-', '-' ∉ g := fun g => not_mem_of_mem_splitOn
  generalize part.splitOn '-' = groups at hlengths hwhole hfree
  simp only [List.map_eq_cons_iff, List.map_eq_nil_iff] at hlengths
  obtain ⟨g₁, _, rfl, h₁, g₂, _, rfl, h₂, g₃, _, rfl, h₃, w, _, rfl, hw, y, _, rfl, hy, rfl⟩ :=
    hlengths
  have hpart : part = g₁ ++ '-' :: (g₂ ++ '-' :: g₃) ++ '-' :: (w ++ '-' :: y) := by
    rw [← hwhole]
    simp [List.intercalate, List.intersperse]
  refine ⟨by simp [hpart, h₁, h₂, h₃, hw, hy], fun d hd => ?_, _, w, y, hpart, hw, hy, ?_⟩
  · rcases hhex d hd with rfl | hd
    · decide
    · exact (plain_of_hex hd).1
  · intro d hd
    refine (hhex d ?_).resolve_left ?_
    · rw [hpart]
      simp only [List.mem_append, List.mem_cons] at hd ⊢
      tauto
    · rintro rfl
      rcases List.mem_append.mp hd with hd | hd
      · exact hfree w (by simp) hd
      · exact hfree y (by simp) hd

theorem generated_flat (huuid : ¬ uuidPart part = true) (h : isGeneratedPart part = true) :
    (∀ d ∈ part, isSpace d = false ∧ isSeparator d = false) ∧ 10 ≤ part.length := by
  simp only [isGeneratedPart, Bool.or_eq_true, Bool.and_eq_true] at h
  rcases h with (h | htime) | ⟨hlong, -⟩
  · exact absurd h huuid
  · simp only [timestampPart, Bool.and_eq_true, decide_eq_true_eq, List.all_eq_true] at htime
    refine ⟨fun d hd => plain_of_alphanum ?_, htime.1.1⟩
    simp [Char.isAlphanum, htime.2 d hd]
  · simp only [opaquePart, Bool.and_eq_true, decide_eq_true_eq, List.all_eq_true,
      Bool.or_eq_true] at hlong
    refine ⟨fun d hd => ?_, by omega⟩
    rcases hlong.2 d hd with (hd | rfl) | rfl
    · exact plain_of_alphanum hd
    · decide
    · decide

theorem generated_tail (hc : isSeparator c = true) (h : isGeneratedPart part = true) :
    (∀ d ∈ part, isSpace d = false) ∧ ∃ u c' y, c :: part = u ++ c' :: y ∧
      isSeparator c' = true ∧ (∀ d ∈ y, isSpace d = false ∧ isSeparator d = false) ∧
      10 ≤ y.length := by
  by_cases huuid : uuidPart part = true
  · obtain ⟨-, hspace, x, w, y, rfl, -, hy, hhex⟩ := uuidPart_groups huuid
    refine ⟨hspace, c :: x ++ '-' :: w, '-', y, by simp, by decide, fun d hd => ?_, by omega⟩
    exact plain_of_hex (hhex d (List.mem_append_right w hd))
  · obtain ⟨hplain, hlength⟩ := generated_flat huuid h
    exact ⟨fun d hd => (hplain d hd).1, [], c, part, rfl, hc, hplain, hlength⟩

theorem cutLast_append (hc : isSeparator c = true) (hw : ∀ d ∈ w, isSeparator d = false) :
    cutLast (front ++ c :: w) = (front, w) := by
  have hplain : ∀ d ∈ w.reverse, (!isSeparator d) = true := fun d hd => by
    simp [hw d (List.mem_reverse.mp hd)]
  have hsplit : (front ++ c :: w).reverse = w.reverse ++ c :: front.reverse := by simp
  simp [cutLast, List.rdropWhile, List.rtakeWhile, hsplit, List.dropWhile_append_of_pos hplain,
    List.takeWhile_append_of_pos hplain, hc]

theorem cutUUID_append (hc : isSeparator c = true) (h : uuidPart part = true) :
    cutUUID (front ++ c :: part) = front := by
  have hlength : (front ++ c :: part).length - 37 = front.length := by
    rw [List.length_append, List.length_cons, (uuidPart_groups h).1]
    omega
  unfold cutUUID
  rw [hlength, List.drop_left]
  dsimp only
  rw [hc, h, List.take_left]
  rfl

inductive Pieces : List Char → Prop where
  | nil : Pieces []
  | snoc {l part : List Char} {c : Char} : Pieces l → isSeparator c = true →
      isGeneratedPart part = true → Pieces (l ++ c :: part)

theorem Pieces.not_space (h : Pieces l) : ∀ d ∈ l, isSpace d = false := by
  induction h with
  | nil => simp
  | snoc _ hc hpart ih =>
    intro d hd
    rcases List.mem_append.mp hd with hd | hd
    · exact ih d hd
    · rcases List.mem_cons.mp hd with rfl | hd
      · cases hs : isSpace d with
        | false => rfl
        | true =>
          simp only [isSeparator, Bool.or_eq_true, decide_eq_true_eq] at hc
          rcases hc with rfl | rfl <;> revert hs <;> decide
      · exact (generated_tail hc hpart).1 d hd

def Loose (r : List Char) : Prop := ∃ d ∈ r.getLast?, isSeparator d = true ∨ isSpace d = true

theorem Loose.last_not_mem (h : Loose (front ++ c :: w)) (hne : w ≠ []) :
    ∃ d ∈ w, isSeparator d = true ∨ isSpace d = true := by
  obtain ⟨d, hd, hloose⟩ := h
  refine ⟨d, List.mem_of_getLast? ?_, hloose⟩
  rwa [List.append_cons, List.getLast?_append_of_ne_nil _ hne] at hd

def EndsInGroup (s : List Char) : Prop :=
  ∃ front c w, isSeparator c = true ∧ s = front ++ c :: w ∧ w.length = 4 ∧ ∀ d ∈ w, isHex d = true

/-- A generated part behind a name is cut off, unless it is taken for the end of a UUID. -/
theorem strip_snoc (hfront : front ≠ []) (hgroup : ¬ EndsInGroup front)
    (hc : isSeparator c = true) (hpart : isGeneratedPart part = true) :
    stripGenerated (front ++ c :: part) = stripGenerated front := by
  by_cases huuid : uuidPart part = true
  · have hne : cutUUID (front ++ c :: part) ≠ front ++ c :: part := by
      rw [cutUUID_append hc huuid]
      exact fun hself => List.cons_ne_nil _ _ (List.self_eq_append_right.mp hself)
    rw [stripGenerated.eq_def, if_pos ⟨hne, by rwa [cutUUID_append hc huuid]⟩,
      cutUUID_append hc huuid]
  · have hplain := (generated_flat huuid hpart).1
    have hlast : cutLast (front ++ c :: part) = (front, part) :=
      cutLast_append hc fun d hd => (hplain d hd).2
    have hsame : cutUUID (front ++ c :: part) = front ++ c :: part := by
      by_contra hcut
      -- the part would be the last group of a UUID, and the group before it ends the name
      obtain ⟨c', part', hc', huuid', hs⟩ := cutUUID_spec hcut
      obtain ⟨-, -, x, w, y, rfl, hw, -, hhex⟩ := uuidPart_groups huuid'
      have hfree : ∀ d ∈ y, isSeparator d = false := fun d hd =>
        (plain_of_hex (hhex d (List.mem_append_right w hd))).2
      have hcuts := congrArg cutLast hs
      rw [hlast, show ∀ z : List Char, z ++ c' :: (x ++ '-' :: (w ++ '-' :: y)) =
        (z ++ c' :: x ++ '-' :: w) ++ '-' :: y by simp, cutLast_append (by decide) hfree] at hcuts
      exact hgroup ⟨_, '-', w, by decide, (Prod.mk.inj hcuts).1, hw,
        fun d hd => hhex d (List.mem_append_left y hd)⟩
    rw [stripGenerated.eq_def, hlast, if_neg fun h => h.1 hsame, if_neg]
    exact not_or.mpr ⟨hfront, by simp [hpart]⟩

theorem not_endsInGroup (hr : Loose r) (hl : Pieces l) : ¬ EndsInGroup (r ++ l) := by
  rintro ⟨front, c, w, hc, hs, hlength, hhex⟩
  have hfree : ∀ d ∈ w, isSeparator d = false := fun d hd => (plain_of_hex (hhex d hd)).2
  cases hl with
  | nil =>
    rw [List.append_nil] at hs
    obtain ⟨d, hd, hloose⟩ := (hs ▸ hr).last_not_mem (List.length_pos_iff.mp (by omega))
    have hplain := plain_of_hex (hhex d hd)
    simp [hplain] at hloose
  | @snoc l part c' hl hc' hpart =>
    obtain ⟨-, u, c₁, y, hy, hc₁, hfree', hten⟩ := generated_tail hc' hpart
    rw [hy, ← List.append_assoc, ← List.append_assoc] at hs
    have hcuts := congrArg cutLast hs
    rw [cutLast_append hc₁ fun d hd => (hfree' d hd).2, cutLast_append hc hfree] at hcuts
    rw [(Prod.mk.inj hcuts).2] at hten
    omega

/-- The loop takes the pieces off a text that ends in a separator or in white space, and stops
there. -/
theorem strip_loose (hr : Loose r) (hl : Pieces l) : stripGenerated (r ++ l) = r := by
  have hne : r ≠ [] := by
    rintro rfl
    obtain ⟨d, hd, -⟩ := hr
    cases hd
  induction hl with
  | nil =>
    rw [List.append_nil]
    refine stripGenerated_eq_self ?_
    rintro ⟨front, c, part, hc, hpart, hs⟩
    obtain ⟨-, u, c₁, y, hy, -, hplain, hten⟩ := generated_tail hc hpart
    rw [hy, ← List.append_assoc] at hs
    obtain ⟨d, hd, hloose⟩ := (hs ▸ hr).last_not_mem (List.length_pos_iff.mp (by omega))
    simp [hplain d hd] at hloose
  | @snoc l part c hl hc hpart ih =>
    rw [← List.append_assoc, strip_snoc (List.append_ne_nil_of_left_ne_nil hne l)
      (not_endsInGroup hr hl) hc hpart]
    exact ih

theorem strip_pieces (v : List Char) : ∃ l, Pieces l ∧ v = stripGenerated v ++ l := by
  fun_induction stripGenerated v with
  | case1 v h ih =>
    obtain ⟨c, part, hc, hpart, hs⟩ := cutUUID_spec h.1
    obtain ⟨l, hl, hv⟩ := ih
    refine ⟨l ++ c :: part, .snoc hl hc (by simp [isGeneratedPart, hpart]), ?_⟩
    rw [← List.append_assoc, ← hv]
    exact hs
  | case2 v _ _ => exact ⟨[], .nil, (List.append_nil v).symm⟩
  | case3 v _ h ih =>
    obtain ⟨hfront, hpart⟩ := not_or.mp h
    obtain ⟨c, hc, hs⟩ := cutLast_spec hfront
    obtain ⟨l, hl, hv⟩ := ih
    refine ⟨l ++ c :: (cutLast v).2, .snoc hl hc (Bool.eq_true_of_not_eq_false hpart), ?_⟩
    rw [← List.append_assoc, ← hv]
    exact hs

theorem strip_stuck (hc : isSeparator c = true) (hpart : isGeneratedPart part = true)
    (h : stripGenerated v = front ++ c :: part) : front = [] := by
  fun_induction stripGenerated v with
  | case1 v _ ih => exact ih h
  | case3 v _ _ ih => exact ih h
  | case2 v hcut hlast =>
    by_contra hfront
    by_cases huuid : uuidPart part = true
    · rw [h, cutUUID_append hc huuid] at hcut
      exact hcut ⟨fun hself => List.cons_ne_nil _ _ (List.self_eq_append_right.mp hself), hfront⟩
    · rw [h, cutLast_append hc fun d hd => ((generated_flat huuid hpart).1 d hd).2] at hlast
      simp [hfront, hpart] at hlast

end Parts

/-! ## Names that cleaning does not finish -/

def Trail (w : List Char) : Prop :=
  ∃ seps spaces, w = seps ++ spaces ∧ (∀ d ∈ seps, isSeparator d = true) ∧
    ∀ d ∈ spaces, isSpace d = true

/-- Behind a generated part, and before the pieces that end the name, the last trimming finds
something to take off; what is left is more than a generated part. -/
def HidesPart (v : List Char) : Prop :=
  ∃ front c part trail l, v = front ++ c :: part ++ trail ++ l ∧ isSeparator c = true ∧
    isGeneratedPart part = true ∧ Trail trail ∧ trail ≠ [] ∧ Pieces l ∧
    (∃ d ∈ front, isSeparator d = false) ∧
    isGeneratedPart (front.dropWhile isSeparator ++ c :: part) = false

def HidesSpace (v : List Char) : Prop :=
  ∃ front d trail l, v = front ++ d :: trail ++ l ∧ isSpace d = true ∧ Trail trail ∧
    (∃ e ∈ trail, isSeparator e = true) ∧ Pieces l

def LeadsSpace (v : List Char) : Prop :=
  ∃ seps d rest, v = seps ++ d :: rest ∧ seps ≠ [] ∧ (∀ e ∈ seps, isSeparator e = true) ∧
    isSpace d = true ∧
    ¬ ∃ spaces l, rest = spaces ++ l ∧ (∀ e ∈ spaces, isSpace e = true) ∧ Pieces l

section Final

variable {v r l front trail : List Char} {c d : Char}

theorem isSeparator_of_isSpace (h : isSpace d = true) : isSeparator d = false := by
  rw [Bool.eq_false_iff]
  intro hd
  simp only [isSeparator, Bool.or_eq_true, decide_eq_true_eq] at hd
  rcases hd with rfl | rfl <;> revert h <;> decide

theorem not_generated_of_space (hd : d ∈ r) (h : isSpace d = true) : isGeneratedPart r = false := by
  rw [Bool.eq_false_iff]
  intro hpart
  exact Bool.eq_false_iff.mp ((generated_tail (c := '-') (by decide) hpart).1 d hd) h

theorem trimmed_layers {lead t seps spaces : List Char} (hlead : ∀ d ∈ lead, isSeparator d = true)
    (hseps : ∀ d ∈ seps, isSeparator d = true) (hspaces : ∀ d ∈ spaces, isSpace d = true)
    (ht : Bare isSeparator t) (hbare : Bare isSpace (lead ++ t ++ seps)) :
    trim isSeparator (trim isSpace (lead ++ t ++ seps ++ spaces)) = t := by
  have hspace : trim isSpace (lead ++ t ++ seps ++ spaces) = lead ++ t ++ seps :=
    trim_eq_iff.mpr ⟨[], spaces, by simp, by simp, hspaces, hbare⟩
  rw [hspace]
  exact trim_eq_iff.mpr ⟨lead, seps, rfl, hlead, hseps, ht⟩

/-- What the loop and the last trimming take off a text, and what they leave. -/
structure Layered (v lead t seps spaces l : List Char) : Prop where
  strip : stripGenerated v = lead ++ t ++ seps ++ spaces
  whole : v = lead ++ t ++ seps ++ spaces ++ l
  pieces : Pieces l
  leading : ∀ d ∈ lead, isSeparator d = true
  trailing : ∀ d ∈ seps, isSeparator d = true
  spaced : ∀ d ∈ spaces, isSpace d = true
  bare : Bare isSeparator t
  within : Bare isSpace (lead ++ t ++ seps)

theorem exists_layers (hv : Bare isSpace v) : ∃ lead seps spaces l,
    Layered v lead (trim isSeparator (trim isSpace (stripGenerated v))) seps spaces l := by
  obtain ⟨l, hl, hvl⟩ := strip_pieces v
  obtain ⟨a, spaces, hr, ha, hspaces, hbare⟩ :=
    trim_eq_iff.mp (rfl : trim isSpace (stripGenerated v) = _)
  obtain ⟨lead, seps, hr₁, hlead, hseps, ht⟩ :=
    trim_eq_iff.mp (rfl : trim isSeparator (trim isSpace (stripGenerated v)) = _)
  -- the text does not begin with white space
  have hnil : a = [] := by
    cases a with
    | nil => rfl
    | cons d a =>
      have hd := hv.1 d (by rw [hvl, hr]; rfl)
      rw [ha d List.mem_cons_self] at hd
      cases hd
  rw [hnil, List.nil_append, hr₁] at hr
  rw [hr₁] at hbare
  exact ⟨lead, seps, spaces, l, hr, hvl.trans (congrArg (· ++ l) hr), hl, hlead, hseps, hspaces,
    ht, hbare⟩

theorem Layered.isTrail {lead t seps spaces : List Char} (h : Layered v lead t seps spaces l) :
    Trail (seps ++ spaces) :=
  ⟨seps, spaces, rfl, h.trailing, h.spaced⟩

def Unfinished (v : List Char) : Prop :=
  ∃ t, trim isSeparator (trim isSpace (stripGenerated v)) = t ∧ t ≠ [] ∧
    isGeneratedPart t = false ∧ (trim isSpace t ≠ t ∨ EndsGenerated t)

theorem head_not_space (hv : Bare isSpace v) (h : v = r ++ l) (hr : r ≠ []) :
    ∀ d ∈ r.head?, isSpace d = false := by
  intro d hd
  refine hv.1 d ?_
  rw [h, List.head?_append_of_ne_nil r hr]
  exact hd

theorem head_dropWhile {rest : List Char} (h : ∀ d ∈ rest.head?, isSeparator d = false) :
    ∀ d ∈ (front.dropWhile isSeparator ++ rest).head?, isSeparator d = false := by
  intro d hd
  have hhead := List.head?_dropWhile_not isSeparator front
  cases hfront : front.dropWhile isSeparator with
  | nil =>
    rw [hfront] at hd
    exact h d hd
  | cons e front' =>
    rw [hfront] at hd hhead
    rw [← Option.some_inj.mp hd]
    simpa using hhead

theorem last_not_space {z seps : List Char} (hz : ∀ d ∈ z.getLast?, isSpace d = false)
    (hseps : ∀ d ∈ seps, isSeparator d = true) :
    ∀ d ∈ (z ++ seps).getLast?, isSpace d = false := by
  intro d hd
  rw [List.getLast?_append] at hd
  cases hlast : seps.getLast? with
  | none =>
    rw [hlast] at hd
    exact hz d hd
  | some e =>
    rw [hlast, Option.some_or] at hd
    have hsep := hseps d (List.mem_of_getLast? (hlast.trans hd))
    rw [Bool.eq_false_iff]
    intro hspace
    rw [isSeparator_of_isSpace hspace] at hsep
    cases hsep

theorem Trail.loose (h : Trail trail) (hne : trail ≠ []) : Loose (front ++ trail) := by
  obtain ⟨seps, spaces, rfl, hseps, hspaces⟩ := h
  refine ⟨_, List.getLast?_append_of_ne_nil front hne ▸ List.getLast?_eq_getLast_of_ne_nil hne, ?_⟩
  rcases List.mem_append.mp (List.getLast_mem hne) with hd | hd
  · exact .inl (hseps _ hd)
  · exact .inr (hspaces _ hd)

theorem unfinished_of_hidesPart (hv : Bare isSpace v) (h : HidesPart v) : Unfinished v := by
  obtain ⟨front, c, part, trail, l, hvl, hc, hpart, htrail, hne, hl, ⟨d, hd, hdsep⟩, hkept⟩ := h
  have hstrip : stripGenerated v = front ++ c :: part ++ trail := by
    rw [hvl]
    exact strip_loose (htrail.loose hne) hl
  obtain ⟨seps, spaces, rfl, hseps, hspaces⟩ := htrail
  obtain ⟨-, u, c₁, y, hy, -, hplain, hten⟩ := generated_tail hc hpart
  have hlast : ∀ z : List Char, ∀ d ∈ (z ++ c :: part).getLast?,
      isSpace d = false ∧ isSeparator d = false := by
    intro z d hd
    rw [hy, ← List.append_assoc, List.append_cons,
      List.getLast?_append_of_ne_nil _ (List.length_pos_iff.mp (by omega))] at hd
    exact hplain d (List.mem_of_getLast? hd)
  have hfront : front.dropWhile isSeparator ≠ [] := by
    intro hnil
    have hall := List.dropWhile_eq_nil_iff.mp hnil d hd
    rw [hdsep] at hall
    cases hall
  have hlayers : front ++ c :: part ++ seps = front.takeWhile isSeparator ++
      (front.dropWhile isSeparator ++ c :: part) ++ seps := by
    rw [← List.append_assoc, List.takeWhile_append_dropWhile]
  refine ⟨front.dropWhile isSeparator ++ c :: part, ?_, by simp, hkept,
    .inr ⟨_, c, part, hc, hpart, rfl⟩⟩
  rw [hstrip, ← List.append_assoc, hlayers]
  refine trimmed_layers (fun _ => List.mem_takeWhile_imp) hseps hspaces
    ⟨?_, fun d hd => (hlast _ d hd).2⟩ ⟨?_, ?_⟩
  · rw [List.head?_append_of_ne_nil _ hfront]
    simpa using @head_dropWhile front [] (by simp)
  · rw [← hlayers]
    exact head_not_space hv (l := spaces ++ l) (by rw [hvl]; simp) (by simp)
  · rw [← hlayers]
    exact last_not_space (fun d hd => (hlast front d hd).1) hseps

theorem unfinished_of_hidesSpace (hv : Bare isSpace v) (h : HidesSpace v) : Unfinished v := by
  obtain ⟨front, d, trail, l, hvl, hd, htrail, ⟨e, he, hesep⟩, hl⟩ := h
  have hstrip : stripGenerated v = front ++ d :: trail := by
    rw [hvl]
    exact strip_loose (List.append_cons front d trail ▸ htrail.loose (List.ne_nil_of_mem he)) hl
  obtain ⟨seps, spaces, rfl, hseps, hspaces⟩ := htrail
  have hne : seps ≠ [] := by
    rintro rfl
    rw [isSeparator_of_isSpace (hspaces e he)] at hesep
    cases hesep
  have hlayers : front ++ d :: seps = front.takeWhile isSeparator ++
      (front.dropWhile isSeparator ++ [d]) ++ seps := by
    rw [← List.append_assoc, List.takeWhile_append_dropWhile, List.append_cons]
  have hdsep := isSeparator_of_isSpace hd
  refine ⟨front.dropWhile isSeparator ++ [d], ?_, by simp,
    not_generated_of_space (by simp) hd, .inl fun hself => ?_⟩
  · rw [hstrip, show front ++ d :: (seps ++ spaces) = front ++ d :: seps ++ spaces by simp,
      hlayers]
    refine trimmed_layers (fun _ => List.mem_takeWhile_imp) hseps hspaces
      ⟨head_dropWhile (by simpa using hdsep), by simpa using hdsep⟩ ⟨?_, ?_⟩
    · rw [← hlayers]
      exact head_not_space hv (l := spaces ++ l) (by rw [hvl]; simp) (by simp)
    · intro e he
      rw [List.getLast?_append_of_ne_nil _ hne, ← List.nil_append seps] at he
      exact last_not_space (by simp) hseps e he
  · obtain ⟨-, -, -, -, -, -, hbare⟩ := trim_eq_iff.mp hself
    exact Bool.eq_false_iff.mp (hbare d (by simp)) hd

/-- Pieces have no white space, so that they are behind any there is. -/
theorem Pieces.behind_space {lead rest : List Char} (hl : Pieces l) (hd : isSpace d = true)
    (h : r ++ l = lead ++ d :: rest) : ∃ y, r = lead ++ d :: y ∧ rest = y ++ l := by
  have hnot : d ∉ l := fun hmem => Bool.eq_false_iff.mp (hl.not_space d hmem) hd
  rcases List.append_eq_append_iff.mp h with ⟨as, -, hl'⟩ | ⟨bs, hr, hl'⟩
  · exact absurd (by rw [hl']; simp) hnot
  · cases bs with
    | nil => exact absurd (by rw [← List.nil_append l, ← hl']; simp) hnot
    | cons b y =>
      obtain ⟨rfl, hrest⟩ := List.cons.inj hl'
      exact ⟨y, hr, hrest⟩

theorem unfinished_of_leadsSpace (hv : Bare isSpace v) (h : LeadsSpace v) : Unfinished v := by
  obtain ⟨lead, d, rest, hvd, hlead, hleadsep, hd, hmore⟩ := h
  have hdsep := isSeparator_of_isSpace hd
  obtain ⟨l, hl, hvl⟩ := strip_pieces v
  obtain ⟨y, hr, hrest⟩ := hl.behind_space hd (hvl.symm.trans hvd)
  have hy₁ : y.rdropWhile isSpace ≠ [] := fun hnil =>
    hmore ⟨y, l, hrest, List.rdropWhile_eq_nil_iff.mp hnil, hl⟩
  have hy : y = (y.rdropWhile isSpace).rdropWhile isSeparator ++
      (y.rdropWhile isSpace).rtakeWhile isSeparator ++ y.rtakeWhile isSpace := by
    rw [List.rdropWhile_append_rtakeWhile, List.rdropWhile_append_rtakeWhile]
  refine ⟨d :: (y.rdropWhile isSpace).rdropWhile isSeparator, ?_, by simp,
    not_generated_of_space List.mem_cons_self hd, .inl fun hself => ?_⟩
  · rw [hr, show lead ++ d :: y = lead ++ d :: (y.rdropWhile isSpace).rdropWhile isSeparator ++
      (y.rdropWhile isSpace).rtakeWhile isSeparator ++ y.rtakeWhile isSpace by
        conv_lhs => rw [hy]
        simp]
    refine trimmed_layers hleadsep (fun _ => List.mem_rtakeWhile_imp)
      (fun _ => List.mem_rtakeWhile_imp) ⟨by simpa using hdsep, fun e he => ?_⟩ ⟨?_, fun e he => ?_⟩
    · rw [← List.singleton_append, List.getLast?_append] at he
      cases hlast : ((y.rdropWhile isSpace).rdropWhile isSeparator).getLast? with
      | none =>
        rw [hlast] at he
        rw [← Option.some_inj.mp he]
        exact hdsep
      | some e' =>
        rw [hlast, Option.some_or] at he
        exact last_rdropWhile (hlast.trans he)
    · refine head_not_space hv (l := y.rtakeWhile isSpace ++ l) ?_ (by simp)
      have hsplit : y ++ l = y.rdropWhile isSpace ++ (y.rtakeWhile isSpace ++ l) := by
        rw [← List.append_assoc, List.rdropWhile_append_rtakeWhile]
      simp [hvd, hrest, hsplit]
    · rw [List.append_assoc, List.cons_append, List.rdropWhile_append_rtakeWhile, List.append_cons,
        List.getLast?_append_of_ne_nil _ hy₁] at he
      exact last_rdropWhile he
  · obtain ⟨-, -, -, -, -, hbare, -⟩ := trim_eq_iff.mp hself
    exact Bool.eq_false_iff.mp (hbare d rfl) hd

section Cases

variable {lead t seps spaces : List Char}

/-- White space behind the separators at the front. -/
theorem Layered.leadsSpace (h : Layered v lead (d :: t) seps spaces l) (hv : Bare isSpace v)
    (ht : trim isSeparator (trim isSpace (stripGenerated v)) = d :: t) (hd : isSpace d = true) :
    LeadsSpace v := by
  have hleadne : lead ≠ [] := by
    rintro rfl
    exact Bool.eq_false_iff.mp (hv.1 d (by rw [h.whole]; rfl)) hd
  refine ⟨lead, d, t ++ seps ++ spaces ++ l, by simp [h.whole], hleadne, h.leading, hd, ?_⟩
  rintro ⟨spaces', l', hrest, hspaces', hl'⟩
  have hall : ∀ e ∈ d :: spaces', isSpace e = true := List.forall_mem_cons.mpr ⟨hd, hspaces'⟩
  have hvl' : v = lead ++ d :: spaces' ++ l' := by
    rw [h.whole]
    simp [← hrest]
  have hstrip : stripGenerated v = lead ++ d :: spaces' := by
    rw [hvl']
    exact strip_loose (Trail.loose ⟨[], _, rfl, by simp, hall⟩ (List.cons_ne_nil d _)) hl'
  -- only separators would be left
  have hnil := @trimmed_layers lead [] [] _ h.leading (by simp) hall ⟨by simp, by simp⟩
    ⟨by simpa using head_not_space hv (hvl'.trans (List.append_assoc ..)) hleadne,
      by simpa using last_not_space (z := []) (by simp) h.leading⟩
  rw [List.append_nil, List.append_nil, ← hstrip, ht] at hnil
  cases hnil

/-- White space before separators at the end. -/
theorem Layered.hidesSpace (h : Layered v lead (t ++ [d]) seps spaces l) (hd : isSpace d = true) :
    HidesSpace v := by
  have hsepne : seps ≠ [] := by
    rintro rfl
    exact Bool.eq_false_iff.mp (h.within.2 d (by simp)) hd
  obtain ⟨e, seps', rfl⟩ := List.exists_cons_of_ne_nil hsepne
  exact ⟨lead ++ t, d, e :: seps' ++ spaces, l, by simp [h.whole], hd, h.isTrail,
    ⟨e, by simp, h.trailing e List.mem_cons_self⟩, h.pieces⟩

/-- A generated part at the end. -/
theorem Layered.hidesPart {part : List Char}
    (h : Layered v lead (front ++ c :: part) seps spaces l) (hc : isSeparator c = true)
    (hpart : isGeneratedPart part = true)
    (hkept : isGeneratedPart (front ++ c :: part) = false) : HidesPart v := by
  obtain ⟨d, front', rfl⟩ : ∃ d front', front = d :: front' := by
    refine List.exists_cons_of_ne_nil ?_
    rintro rfl
    exact Bool.eq_false_iff.mp (h.bare.1 c rfl) hc
  have hd := h.bare.1 d rfl
  have hdrop : (lead ++ d :: front').dropWhile isSeparator = d :: front' := by
    rw [List.dropWhile_append_of_pos h.leading, List.dropWhile_cons_of_neg (by simp [hd])]
  refine ⟨lead ++ d :: front', c, part, seps ++ spaces, l, by simp [h.whole], hc, hpart, h.isTrail,
    ?_, h.pieces, ⟨d, by simp, hd⟩, by rwa [hdrop]⟩
  intro hnil
  have hstuck : stripGenerated v = (lead ++ d :: front') ++ c :: part := by
    rw [h.strip, List.append_assoc _ seps, hnil]
    simp
  exact absurd (strip_stuck hc hpart hstuck) (by simp)

end Cases

theorem unfinished_cases (hv : Bare isSpace v) (h : Unfinished v) :
    HidesPart v ∨ HidesSpace v ∨ LeadsSpace v := by
  obtain ⟨t, ht, hne, hkept, hagain⟩ := h
  obtain ⟨lead, seps, spaces, l, hlayers⟩ := exists_layers hv
  rw [ht] at hlayers
  rcases hagain with hspaced | ⟨front, c, part, hc, hpart, rfl⟩
  · have hends : ¬ Bare isSpace t := fun hall =>
      hspaced (trim_eq_iff.mpr ⟨[], [], by simp, by simp, by simp, hall⟩)
    rcases not_and_or.mp hends with hfirst | hlast
    · simp only [not_forall, Bool.not_eq_false] at hfirst
      obtain ⟨d, hd, hdspace⟩ := hfirst
      obtain ⟨t', rfl⟩ := List.head?_eq_some_iff.mp hd
      exact .inr (.inr (hlayers.leadsSpace hv ht hdspace))
    · simp only [not_forall, Bool.not_eq_false] at hlast
      obtain ⟨d, hd, hdspace⟩ := hlast
      obtain ⟨t', rfl⟩ := List.getLast?_eq_some_iff.mp hd
      exact .inr (.inl (hlayers.hidesSpace hdspace))
  · exact .inl (hlayers.hidesPart hc hpart hkept)

end Final

/-- **A cleaned name is final** and does not end in a generated part, exactly if in the name
without white space around it neither a generated part nor white space stands behind what the loop
cuts off and what the last trimming takes off, and no white space behind separators at the
front. -/
theorem cleaned_name_final_iff (s : List Char) :
    (cleanGeneratedName (cleanGeneratedName s) = cleanGeneratedName s ∧
      (cleanGeneratedName s = [] ∨ ¬ EndsGenerated (cleanGeneratedName s))) ↔
    ¬ HidesPart (trim isSpace s) ∧ ¬ HidesSpace (trim isSpace s) ∧
      ¬ LeadsSpace (trim isSpace s) := by
  obtain ⟨-, -, -, -, -, hv⟩ := trim_eq_iff.mp (rfl : trim isSpace s = _)
  have hunfinished : Unfinished (trim isSpace s) ↔ ¬ (trimmedName s = [] ∨
      isGeneratedPart (trimmedName s) = true ∨
      (trim isSpace (trimmedName s) = trimmedName s ∧ ¬ EndsGenerated (trimmedName s))) := by
    unfold Unfinished trimmedName
    simp only [exists_eq_left', not_or, not_and_or, not_not, Bool.not_eq_true, ne_eq]
  rw [cleaned_iff_trimmed, ← not_iff_not, ← hunfinished, not_and_or, not_and_or, not_not, not_not,
    not_not]
  refine ⟨unfinished_cases hv, ?_⟩
  rintro (h | h | h)
  · exact unfinished_of_hidesPart hv h
  · exact unfinished_of_hidesSpace hv h
  · exact unfinished_of_leadsSpace hv h

/-- A hyphen at the end hides a time stamp from the loop. -/
theorem hidden_timestamp_kept :
    cleanGeneratedName "web-1700000000-".toList = "web-1700000000".toList ∧
      cleanGeneratedName "web-1700000000".toList = "web".toList := by
  decide +kernel

end Binnacle.Resources
