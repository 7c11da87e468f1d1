import Binnacle.Clock
import Mathlib.Data.List.Infix

/-!
# Diagnostics bundles (`internal/diagnostics/bundle.go`)

`Generate` removes fields by their names and rewrites texts, in maps of type `map[string]any`
and in those within them. A list, a struct or a map of another type is taken over as it is.

- `Value`: what a collector may return, with the two kinds of maps told apart;
- `bundle_sanitary_iff`: when the JSON of a bundle is sanitized at every depth.

`url.Parse`, `unicode.ToLower` and the text of an instant are parameters; the two regular
expressions are written out.
-/

namespace Binnacle.Diagnostics

inductive Value where
  /-- A `string`. -/
  | text (s : String)
  /-- A value of another type that is serialized as a text, such as an instant. -/
  | marshaled (s : String)
  /-- A number, a truth value or nothing. -/
  | plain
  | list (items : List Value)
  /-- A `map[string]any`. -/
  | map (fields : List (String × Value))
  /-- A struct, or a map of another type. -/
  | record (fields : List (String × Value))

structure BundleLibrary where
  /-- A text that `url.Parse` finds a user in, without the user. -/
  withoutUser : String → Option String
  toLower : Char → Char
  marshalTime : Time → String

/-! ## `sanitizeDetail` (`internal/diagnostics/onboarding.go:223-248`) -/

/-- `ReplaceAllString`, for a match that sees the character before it and gives its replacement,
its last character and what is left. -/
def replaceAll (find : Option Char → List Char → Option (List Char × Char × List Char)) :
    Nat → Option Char → List Char → List Char
  | 0, _, text => text
  | _ + 1, _, [] => []
  | fuel + 1, before, c :: text =>
    match find before (c :: text) with
    | some (replacement, last, left) => replacement ++ replaceAll find fuel (some last) left
    | none => c :: replaceAll find fuel (some c) text

/-- A character and a small letter are one under `(?i)`. -/
def foldsTo (c letter : Char) : Bool :=
  c.toLower = letter || (letter = 'k' && c = '\u212a') || (letter = 's' && c = '\u017f')

/-- The pattern `(?i)(token|password|secret|key)=([^&\s]+)`, replaced by `$1=[redacted]`. -/
def secretQuery (_ : Option Char) (text : List Char) : Option (List Char × Char × List Char) :=
  ["token", "password", "secret", "key"].findSome? fun word =>
    let name := text.take word.length
    let value := (text.drop (word.length + 1)).takeWhile fun c =>
      c ∉ ['&', '\t', '\n', '\x0c', '\r', ' ']
    if name.length = word.length && (List.zipWith foldsTo name word.toList).all id &&
        text[word.length]? = some '=' then
      value.getLast?.map fun last =>
        (name ++ "=[redacted]".toList, last, text.drop (word.length + 1 + value.length))
    else none

/-- The class `\w`. -/
def isWord (c : Char) : Bool := c.isAlphanum || c = '_'

def octet (text : List Char) : Option (List Char) :=
  let digits := text.takeWhile Char.isDigit
  if 1 ≤ digits.length ∧ digits.length ≤ 3 then some (text.drop digits.length) else none

def dottedOctet (text : List Char) : Option (List Char) :=
  match octet text with
  | some ('.' :: left) => some left
  | _ => none

/-- An address between word boundaries, replaced by `[ip redacted]`. A longer run of digits is
none however it is split. -/
def ipDetail (before : Option Char) (text : List Char) : Option (List Char × Char × List Char) := do
  if before.any isWord then none
  let left ← octet (← dottedOctet (← dottedOctet (← dottedOctet text)))
  if left.head?.any isWord then none
  return ("[ip redacted]".toList, '0', left)

def printable (text : List Char) : List Char :=
  text.filterMap fun c =>
    if c ∈ ['\n', '\r', '\t'] then some ' ' else if c.val < 0x20 then none else some c

/-- The first bytes of a text. The bytes of a character that is cut are serialized as `\ufffd`. -/
def firstBytes : Nat → List Char → List Char
  | _, [] => []
  | n, c :: text =>
    if c.utf8Size ≤ n then c :: firstBytes (n - c.utf8Size) text else List.replicate n '\ufffd'

variable (lib : BundleLibrary)

def sanitizeDetail (value : String) : String :=
  let value := String.ofList (printable value.toList)
  let value := ((lib.withoutUser value).getD value).toList
  let value := replaceAll secretQuery value.length none value
  let value := replaceAll ipDetail value.length none value
  String.ofList (firstBytes 300 value)

/-! ## The fields of a bundle -/

/-- The keys that are left out (bundle.go:100-103). -/
def withheld (toLower : Char → Char) (key : String) : Bool :=
  ["password", "token", "secret", "environment", "logs"].any fun word =>
    decide (word.toList <:+: key.toList.map toLower)

mutual

/-- `sanitizeFields` (bundle.go:97-114). -/
def sanitizeFields : List (String × Value) → List (String × Value)
  | [] => []
  | (key, value) :: fields =>
    if withheld lib.toLower key then sanitizeFields fields
    else (key, sanitizeValue value) :: sanitizeFields fields

/-- The cases of `sanitizeFields` (bundle.go:104-111). -/
def sanitizeValue : Value → Value
  | .text s => .text (sanitizeDetail lib s)
  | .map fields => .map (sanitizeFields fields)
  | value => value

end

structure BundleData where
  fields : List (String × Value)
  partialFailures : List String

structure BundlePreview where
  id : String
  createdAt : Time
  expiresAt : Time
  fields : List (String × Value)
  partialFailures : List String

/-- The preview that `Generate` makes (bundle.go:52-59); bundles are kept for ten minutes. -/
def generate (data : BundleData) (id : String) (now : Time) : BundlePreview where
  id := id
  createdAt := now
  expiresAt := now + 10 * minute
  fields := sanitizeFields lib data.fields
  partialFailures := data.partialFailures

/-- The JSON of a preview, which is also the file in the archive (bundle.go:116-120). -/
def BundlePreview.json (p : BundlePreview) : Value :=
  .record ([("id", .text p.id), ("createdAt", .text (lib.marshalTime p.createdAt)),
    ("expiresAt", .text (lib.marshalTime p.expiresAt)), ("fields", .map p.fields)] ++
    if p.partialFailures = [] then [] else
      [("partialFailures", .list (p.partialFailures.map .text))])

/-! ## Sanitized at every depth -/

/-- The text has been passed through `sanitizeDetail`. -/
def Passed (s : String) : Prop := ∃ original, sanitizeDetail lib original = s

mutual

def Sanitary : Value → Prop
  | .text s | .marshaled s => Passed lib s
  | .plain => True
  | .list items => SanitaryItems items
  | .map fields => SanitaryFields fields
  | .record fields => SanitaryFields fields

def SanitaryItems : List Value → Prop
  | [] => True
  | value :: items => Sanitary value ∧ SanitaryItems items

def SanitaryFields : List (String × Value) → Prop
  | [] => True
  | (key, value) :: fields =>
    withheld lib.toLower key = false ∧ Sanitary value ∧ SanitaryFields fields

end

mutual

/-- The values that `sanitizeFields` takes over as they are. -/
def takenOver : List (String × Value) → List Value
  | [] => []
  | (key, value) :: fields =>
    if withheld lib.toLower key then takenOver fields else partsOf value ++ takenOver fields

def partsOf : Value → List Value
  | .text _ => []
  | .map fields => takenOver fields
  | value => [value]

end

mutual

theorem sanitaryFields_sanitize_iff : ∀ fields, SanitaryFields lib (sanitizeFields lib fields) ↔
    ∀ value ∈ takenOver lib fields, Sanitary lib value
  | [] => by simp [sanitizeFields, SanitaryFields, takenOver]
  | (key, value) :: fields => by
    have hvalue := sanitary_sanitize_iff value
    have hfields := sanitaryFields_sanitize_iff fields
    cases hkey : withheld lib.toLower key with
    | true => simpa [sanitizeFields, takenOver, hkey] using hfields
    | false =>
      simp only [sanitizeFields, takenOver, hkey, Bool.false_eq_true, if_false, SanitaryFields,
        true_and, List.forall_mem_append]
      exact and_congr hvalue hfields

theorem sanitary_sanitize_iff : ∀ value, Sanitary lib (sanitizeValue lib value) ↔
    ∀ part ∈ partsOf lib value, Sanitary lib part
  | .text s => by simp [sanitizeValue, Sanitary, partsOf, Passed]
  | .marshaled _ | .plain | .list _ | .record _ => by simp [sanitizeValue, partsOf]
  | .map fields => by
    have hfields := sanitaryFields_sanitize_iff fields
    simpa [sanitizeValue, Sanitary, partsOf] using hfields

end

theorem sanitaryItems_text_iff (texts : List String) :
    SanitaryItems lib (texts.map .text) ↔ ∀ s ∈ texts, Passed lib s := by
  induction texts with
  | nil => simp [SanitaryItems]
  | cons s texts ih => simp [SanitaryItems, Sanitary, ih]

def bundleKeys : List String := ["id", "createdAt", "expiresAt", "fields", "partialFailures"]

/-- The JSON of a bundle is sanitized at every depth exactly if the values that are taken over are,
and the texts beside the fields have been passed. -/
theorem bundle_sanitary_iff (hlower : ∀ c : Char, c.val < 128 → lib.toLower c = c.toLower)
    (data : BundleData) (id : String) (now : Time) :
    Sanitary lib ((generate lib data id now).json lib) ↔
      (∀ value ∈ takenOver lib data.fields, Sanitary lib value) ∧
        ∀ s ∈ [id, lib.marshalTime now, lib.marshalTime (now + 10 * minute)] ++
          data.partialFailures,
          Passed lib s := by
  have hascii : ∀ key ∈ bundleKeys, key.toList.all fun c => c.val < 128 := by decide +kernel
  have hplain : ∀ key ∈ bundleKeys, withheld Char.toLower key = false := by decide +kernel
  have hkey : ∀ key ∈ bundleKeys, withheld lib.toLower key = false := by
    intro key hmem
    rw [← hplain key hmem]
    unfold withheld
    have hsmall := List.all_eq_true.mp (hascii key hmem)
    rw [List.map_congr_left fun c hc => hlower c (of_decide_eq_true (hsmall c hc))]
  have hfields := sanitaryFields_sanitize_iff lib data.fields
  have hfailures := sanitaryItems_text_iff lib data.partialFailures
  simp only [bundleKeys, List.forall_mem_cons] at hkey
  obtain ⟨hid, hcreated, hexpires, hfield, hfailure, -⟩ := hkey
  have hrest : SanitaryFields lib (if data.partialFailures = [] then [] else
      [("partialFailures", .list (data.partialFailures.map .text))]) ↔
      ∀ s ∈ data.partialFailures, Passed lib s := by
    split
    · next hnone => simp [hnone, SanitaryFields]
    · simp only [SanitaryFields, Sanitary, hfailure, hfailures, true_and, and_true]
  simp only [BundlePreview.json, generate, List.cons_append, List.nil_append, Sanitary,
    SanitaryFields, hid, hcreated, hexpires, hfield, hfields, true_and,
    List.forall_mem_cons]
  constructor
  · rintro ⟨hpassed, hpassed', hpassed'', htaken, hothers⟩
    exact ⟨htaken, hpassed, hpassed', hpassed'', hrest.mp hothers⟩
  · rintro ⟨htaken, hpassed, hpassed', hpassed'', hothers⟩
    exact ⟨hpassed, hpassed', hpassed'', htaken, hrest.mpr hothers⟩

def plainTexts : BundleLibrary := ⟨fun _ => none, Char.toLower, fun _ => ""⟩

/-- An address and a query are rewritten. -/
example : sanitizeDetail plainTexts "GET 10.0.0.1/?Key=abc&x" =
    "GET [ip redacted]/?Key=[redacted]&x" := by decide +kernel

/-- The list among the fields is taken over, and its texts are as if passed. -/
theorem bundle_sanitary_plain :
    Sanitary plainTexts ((generate plainTexts
      ⟨[("version", .text "1.0"), ("api_token", .plain),
        ("docker", .map [("host", .text "10.0.0.1"), ("logs", .list [])]),
        ("stages", .list [.marshaled "ok", .plain])], ["no Docker"]⟩ "diag" 0).json
          plainTexts) := by
  have hpassed : ∀ s ∈ ["ok", "diag", "", "no Docker"], Passed plainTexts s := by
    intro s hs
    have hsame : ∀ s ∈ ["ok", "diag", "", "no Docker"], sanitizeDetail plainTexts s = s := by
      decide +kernel
    exact ⟨s, hsame s hs⟩
  have hkeys : (["api_token", "logs"].all (withheld Char.toLower) &&
      ["version", "docker", "host", "stages"].all fun key => !withheld Char.toLower key)
        = true := by
    decide +kernel
  simp only [List.all_cons, List.all_nil, Bool.and_true, Bool.and_eq_true,
    Bool.not_eq_true'] at hkeys
  obtain ⟨⟨htoken, hlogs⟩, hversion, hdocker, hhost, hstages⟩ := hkeys
  refine (bundle_sanitary_iff plainTexts (fun _ _ => rfl) _ _ _).mpr ⟨?_, fun s hs => hpassed s ?_⟩
  · intro value hvalue
    simp only [takenOver, partsOf, plainTexts, htoken, hlogs, hversion, hdocker, hhost, hstages,
      if_true, Bool.false_eq_true, if_false, List.nil_append, List.append_nil,
      List.mem_singleton] at hvalue
    rw [hvalue]
    exact ⟨hpassed "ok" (by decide), trivial, trivial⟩
  · simp only [plainTexts, List.cons_append, List.nil_append, List.mem_cons, List.not_mem_nil,
      or_false] at hs ⊢
    tauto

/-- The settings that the program puts into a bundle (main.go:269) are a typed map, with keys that
are to be left out. -/
theorem bundle_shows_token :
    ¬ Sanitary plainTexts ((generate plainTexts ⟨[("configuration", .record
      [("coolify.api_token", .record [("value", .text "configured")])])], []⟩ "diag" 0).json
        plainTexts) := by
  have hconfiguration : withheld plainTexts.toLower "configuration" = false := by decide +kernel
  have htoken : withheld plainTexts.toLower "coolify.api_token" = true := by decide +kernel
  simp only [BundlePreview.json, generate, sanitizeFields, sanitizeValue, hconfiguration,
    Bool.false_eq_true, if_false, List.cons_append, Sanitary, SanitaryFields, htoken, false_and,
    and_false, reduceCtorEq, not_false_eq_true]

end Binnacle.Diagnostics
