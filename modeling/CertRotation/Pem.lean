import CertRotation.Octets
import CertRotation.Text.Base64
import CertRotation.Text.Basic

/-!
PEM files. A file is read as the sequence of its complete blocks; octets between blocks are
skipped, and one bad block makes the whole file malformed. A block is written with 64 columns
and line feeds.
-/

namespace CertRotation.Pem

/-- A labelled block of octets. Header lines of a block that was read are not kept. -/
structure Block where
  label : String
  contents : Octets
deriving DecidableEq, Repr

/-- Cuts a text into lines of `columns` characters. -/
def chunks (columns : Nat) (text : List Char) : List (List Char) :=
  if _h : columns = 0 ∨ text = [] then []
  else text.take columns :: chunks columns (text.drop columns)
termination_by text.length
decreasing_by
  have : text.length ≠ 0 := by simpa using fun e => _h (.inr e)
  simp only [List.length_drop]
  omega

/-- The file text of a block. Empty contents give no data line. -/
def render (block : Block) : String :=
  let data := (chunks 64 (Base64.encode block.contents)).map (fun line => String.ofList line ++ "\n")
  "-----BEGIN " ++ block.label ++ "-----\n" ++ String.join data ++
    "-----END " ++ block.label ++ "-----\n"

/-- The number of octets up to the end of the first `marker`, by a scan that never backs up: an
octet that breaks a partial match is not tried again as the start of one. -/
def markerEnd? (marker : Octets) : (expected : Octets) → Octets → Option Nat
  | [], _ => some 0
  | _ :: _, [] => none
  | e :: expected, byte :: rest =>
    (markerEnd? marker (if byte == e then expected else marker) rest).map (· + 1)

/-- What stands before and after the first `marker` of a text. -/
def splitAt? (marker text : Octets) : Option (Octets × Octets) :=
  (markerEnd? marker marker text).map fun stop =>
    (text.take (stop - marker.length), text.drop stop)

/-- The dashes on both sides of a label: `-----`. -/
def dashes : Octets := [45, 45, 45, 45, 45]

/-- The marker that opens a block: `-----BEGIN ` with its blank. -/
def beginMarker : Octets := dashes ++ [66, 69, 71, 73, 78, 32]

/-- The marker between the data of a block and its second label: `-----END ` with its blank. -/
def endMarker : Octets := dashes ++ [69, 78, 68, 32]

/-- Drops blanks, tabs and line ends in front. -/
def skipBlanks (text : Octets) : Octets :=
  text.dropWhile fun byte => byte == 32 || byte == 9 || byte == 13 || byte == 10

/-- The text between the markers of one block, not yet looked into. -/
structure RawBlock where
  opening : Octets
  body : Octets
  closing : Octets

/-- The first complete block of a text and what follows it. -/
def nextRaw? (text : Octets) : Option (RawBlock × Octets) := do
  let (_, text) ← splitAt? beginMarker text
  let (opening, text) ← splitAt? dashes text
  let (body, text) ← splitAt? endMarker (skipBlanks text)
  let (closing, text) ← splitAt? dashes text
  return (⟨opening, body, closing⟩, skipBlanks text)

theorem splitAt?_length_le {marker text before after : Octets}
    (h : splitAt? marker text = some (before, after)) : after.length ≤ text.length := by
  simp only [splitAt?, Option.map_eq_some_iff, Prod.mk.injEq] at h
  obtain ⟨stop, -, -, rfl⟩ := h
  simp

theorem splitAt?_length_lt {first : UInt8} {marker text before after : Octets}
    (h : splitAt? (first :: marker) text = some (before, after)) :
    after.length < text.length := by
  simp only [splitAt?, Option.map_eq_some_iff, Prod.mk.injEq] at h
  obtain ⟨stop, hstop, -, rfl⟩ := h
  cases text with
  | nil => simp [markerEnd?] at hstop
  | cons byte rest =>
    simp only [markerEnd?, Option.map_eq_some_iff] at hstop
    obtain ⟨n, -, rfl⟩ := hstop
    simp only [List.length_drop, List.length_cons]
    omega

theorem length_skipBlanks_le (text : Octets) : (skipBlanks text).length ≤ text.length :=
  (List.dropWhile_suffix _).length_le

theorem nextRaw?_length_lt {text rest : Octets} {raw : RawBlock}
    (h : nextRaw? text = some (raw, rest)) : rest.length < text.length := by
  simp only [nextRaw?, Option.bind_eq_bind, Option.bind_eq_some_iff] at h
  obtain ⟨⟨_, a⟩, ha, ⟨_, b⟩, hb, ⟨_, c⟩, hc, ⟨_, d⟩, hd, hrest⟩ := h
  have h1 := splitAt?_length_lt ha
  have h2 := splitAt?_length_le hb
  have h3 := splitAt?_length_le hc
  have h4 := splitAt?_length_le hd
  have h5 := length_skipBlanks_le b
  have h6 := length_skipBlanks_le d
  obtain ⟨-, rfl⟩ := Prod.mk.inj (Option.some.inj hrest)
  simp only at h2 h3 h4 ⊢
  omega

/-- The complete blocks of a text, in order. Reading ends where no complete block follows. -/
def rawBlocks (text : Octets) : List RawBlock :=
  match _h : nextRaw? text with
  | none => []
  | some (raw, rest) => raw :: rawBlocks rest
termination_by text.length
decreasing_by exact nextRaw?_length_lt _h

/-- Parts a block's text at its first empty line; without one there are no headers. -/
def splitHeaders (body : Octets) : Octets × Octets :=
  match splitAt? [10, 10] body with
  | some parts => parts
  | none => (splitAt? [13, 10, 13, 10] body).getD ([], body)

/-- Whether every line holds a colon, where `seen` tells whether the current one has so far. The
end of a text that ends with a line feed starts no further line. -/
def colonInEveryLine : (seen : Bool) → List Char → Bool
  | seen, [] => seen
  | seen, '\n' :: rest => seen && (rest.isEmpty || colonInEveryLine false rest)
  | seen, c :: rest => colonInEveryLine (seen || c == ':') rest

/-- Why a file is malformed. -/
inductive Fault where
  | notText
  | missingLabel
  | labelsDiffer
  | badHeader
  | badData
deriving DecidableEq, Repr

/-- Reads the text between the markers of a block. -/
def readBlock (raw : RawBlock) : Except Fault Block := do
  let some opening := Utf8.decode? raw.opening | throw .notText
  let some closing := Utf8.decode? raw.closing | throw .notText
  if opening.isEmpty then throw .missingLabel
  if opening ≠ closing then throw .labelsDiffer
  let (headers, data) := splitHeaders raw.body
  let some data := Utf8.decode? data | throw .notText
  let some contents := Base64.decode? (data.toList.filter fun c => !Text.isBlank c)
    | throw .badData
  let some headers := Utf8.decode? headers | throw .notText
  if headers.isEmpty || colonInEveryLine false headers.toList then return ⟨opening, contents⟩
  throw .badHeader

/-- All blocks of a file, in order. -/
def parse (text : Octets) : Except Fault (List Block) :=
  (rawBlocks text).mapM readBlock

end CertRotation.Pem
