/-!
Words of a command line, values of the environment and names of files. The machine gives them as bytes, which
need not form characters; they are held as strings all the same. A byte that is part of no character is held
as one of the last 128 characters there are, and so is each byte of these characters themselves. In this way
every run of bytes is held, and no two alike.
-/
namespace DesignCompiler

/-- Bytes that are mostly those of a text. -/
abbrev RawText := String

namespace RawText

/-- The byte that a character holds, if it is one of the last 128. -/
def byte? (c : Char) : Option UInt8 :=
  if c.toNat < 0x10ff80 then none else some (c.toNat - 0x10ff00).toUInt8

/-- The character that holds a byte. Bytes of ASCII are characters by themselves. -/
def hold (byte : UInt8) : Char :=
  Char.ofNat (if byte < 0x80 then byte.toNat else 0x10ff00 + byte.toNat)

def charBytes (c : Char) : List UInt8 :=
  match byte? c with
  | some byte => [byte]
  | none => String.utf8EncodeChar c

def bytes (raw : RawText) : List UInt8 := raw.toList.flatMap charBytes

/-- The characters that bytes form, if they form some. -/
def decode? (bytes : List UInt8) : Option String := String.fromUTF8? bytes.toByteArray

/-- The text that is meant, if the bytes form one. -/
def text? (raw : RawText) : Option String := decode? raw.bytes

/-- How many bytes of a character are still to come, and the bounds of the next one. -/
structure Awaited where
  count : Nat
  low : UInt8
  high : UInt8

def Awaited.after (first : UInt8) : Awaited :=
  if first < 0xc2 ∨ 0xf4 < first then ⟨0, 0x80, 0xbf⟩
  else if first < 0xe0 then ⟨1, 0x80, 0xbf⟩
  else if first < 0xf0 then
    ⟨2, if first = 0xe0 then 0xa0 else 0x80, if first = 0xed then 0x9f else 0xbf⟩
  else ⟨3, if first = 0xf0 then 0x90 else 0x80, if first = 0xf4 then 0x8f else 0xbf⟩

/-- Bytes that have begun a run, and the runs after it. -/
def runsFrom (run : List UInt8) (awaited : Awaited) : List UInt8 → List (List UInt8)
  | [] => [run]
  | byte :: rest =>
    if 0 < awaited.count ∧ awaited.low ≤ byte ∧ byte ≤ awaited.high then
      runsFrom (run ++ [byte]) ⟨awaited.count - 1, 0x80, 0xbf⟩ rest
    else run :: runsFrom [byte] (.after byte) rest

/-- Bytes by characters. What breaks off before it is a character is a run as well. -/
def runs : List UInt8 → List (List UInt8)
  | [] => []
  | byte :: rest => runsFrom [byte] (.after byte) rest

/-- A run as it is held: by its characters, or byte by byte. -/
def ofRun (run : List UInt8) : List Char :=
  match decode? run with
  | some text => if text.toList.all fun c => (byte? c).isNone then text.toList else run.map hold
  | none => run.map hold

def ofBytes (bytes : List UInt8) : RawText := String.ofList ((runs bytes).flatMap ofRun)

/-- A text as the machine would give it. -/
def ofText (text : String) : RawText := ofBytes text.toUTF8.toList

/-- The bytes for a reader, with a mark for each run that is no character. -/
def shown (raw : RawText) : String :=
  String.join ((runs raw.bytes).map fun run => (decode? run).getD "\ufffd")

theorem charBytes_hold (byte : UInt8) : charBytes (hold byte) = [byte] := by
  have all : ∀ number : Fin 256, charBytes (hold ⟨⟨number⟩⟩) = [⟨⟨number⟩⟩] := by decide +kernel
  exact all byte.toBitVec.toFin

theorem flatten_runsFrom (run : List UInt8) (awaited : Awaited) (bytes : List UInt8) :
    (runsFrom run awaited bytes).flatten = run ++ bytes := by
  induction bytes generalizing run awaited with
  | nil => simp [runsFrom]
  | cons byte rest ih =>
    rw [runsFrom]
    split
    · rw [ih, List.append_assoc, List.singleton_append]
    · rw [List.flatten_cons, ih, List.singleton_append]

theorem flatten_runs (bytes : List UInt8) : (runs bytes).flatten = bytes := by
  cases bytes with
  | nil => rfl
  | cons byte rest => exact flatten_runsFrom [byte] _ rest

theorem toByteArray_injective {one other : List UInt8} (same : one.toByteArray = other.toByteArray) :
    one = other := by
  simpa using congrArg (·.data.toList) same

theorem toByteArray_eq (text : String) :
    text.toByteArray = (text.toList.flatMap String.utf8EncodeChar).toByteArray := String.utf8Encode_toList.symm

theorem decode?_eq_some {bytes : List UInt8} {text : String} :
    decode? bytes = some text ↔ text.toList.flatMap String.utf8EncodeChar = bytes := by
  rw [decode?, String.fromUTF8?]
  constructor
  · intro decoded
    split at decoded
    · rename_i valid
      have same : text.toByteArray = bytes.toByteArray := by rw [← Option.some.inj decoded]; rfl
      exact toByteArray_injective ((toByteArray_eq text).symm.trans same)
    · cases decoded
  · intro encoded
    have same : bytes.toByteArray = text.toByteArray := by rw [toByteArray_eq, encoded]
    have valid : bytes.toByteArray.IsValidUTF8 := same ▸ text.isValidUTF8
    rw [dif_pos valid]
    exact congrArg some (String.toByteArray_inj.mp same)

theorem flatMap_hold (run : List UInt8) : (run.map hold).flatMap charBytes = run := by
  induction run with
  | nil => rfl
  | cons byte rest ih => rw [List.map_cons, List.flatMap_cons, charBytes_hold, ih, List.singleton_append]

theorem flatMap_charBytes {chars : List Char} (plain : ∀ c ∈ chars, byte? c = none) :
    chars.flatMap charBytes = chars.flatMap String.utf8EncodeChar := by
  induction chars with
  | nil => rfl
  | cons c rest ih =>
    obtain ⟨first, later⟩ := List.forall_mem_cons.mp plain
    rw [List.flatMap_cons, List.flatMap_cons, ih later, charBytes, first]

theorem flatMap_ofRun (run : List UInt8) : (ofRun run).flatMap charBytes = run := by
  rw [ofRun]
  split
  · rename_i text decoded
    split
    · rename_i plain
      rw [flatMap_charBytes (by simpa using plain)]
      exact decode?_eq_some.mp decoded
    · exact flatMap_hold run
  · exact flatMap_hold run

/-- No byte is lost in holding. -/
theorem bytes_ofBytes (held : List UInt8) : (ofBytes held).bytes = held := by
  rw [bytes, ofBytes, String.toList_ofList, List.flatMap_assoc]
  simp only [flatMap_ofRun, List.flatMap_id', flatten_runs]

/-- What has none of the last 128 characters is a text. -/
theorem text?_eq_some {raw : RawText} (plain : ∀ c ∈ raw.toList, byte? c = none) : raw.text? = some raw :=
  decode?_eq_some.mpr (flatMap_charBytes plain).symm

end RawText
end DesignCompiler
