/-!
# D-Bus type codes

A D-Bus type is named by one ASCII character.  The thirteen basic types hold one
number or one string; arrays, structs, dict entries and variants contain values.

Two tables say what an integer type admits.  `BasicType.window?` gives the range
that a value is checked against, and `BasicType.storage` gives the native cell that
the value is then put into, which keeps only as many bits as it has.
-/

namespace DBusHost

/-- The integers of a given width, signed in two's complement or unsigned. -/
structure IntWindow where
  signed : Bool
  bits : Nat
  deriving DecidableEq, Repr

namespace IntWindow

/-- The number of integers that a number of bits can tell apart. -/
def patterns (bits : Nat) : Nat := 1 <<< bits

def least (w : IntWindow) : Int := if w.signed then -(patterns (w.bits - 1) : Int) else 0

def greatest (w : IntWindow) : Int :=
  if w.signed then (patterns (w.bits - 1) : Int) - 1 else (patterns w.bits : Int) - 1

def contains (w : IntWindow) (i : Int) : Bool := w.least ≤ i && i ≤ w.greatest

/-- The integer lies in the window, found out in a window no wider than the integer. -/
def fits (w : IntWindow) (i : Int) : Bool :=
  contains ⟨w.signed, min w.bits (i.natAbs.log2 + 2)⟩ i

/-- What a cell of this width holds after the integer is stored in it: the integer
of the window that is congruent to it modulo the number of patterns. -/
def store (w : IntWindow) (i : Int) : Int :=
  if w.signed then Int.bmod i (patterns w.bits) else i % (patterns w.bits : Int)

theorem patterns_succ (n : Nat) : patterns (n + 1) = 2 * patterns n := by
  simp [patterns, Nat.shiftLeft_succ]

theorem patterns_le {m n : Nat} (h : m ≤ n) : patterns m ≤ patterns n := by
  simp only [patterns, Nat.shiftLeft_eq, Nat.one_mul]
  exact Nat.pow_le_pow_right (by decide) h

theorem patterns_pos (n : Nat) : 0 < patterns n := patterns_le (Nat.zero_le n)

theorem lt_patterns (n : Nat) : n < patterns (n.log2 + 1) := by
  simpa only [patterns, Nat.shiftLeft_eq, Nat.one_mul] using Nat.lt_log2_self

theorem fits_eq_contains (w : IntWindow) (i : Int) : w.fits i = w.contains i := by
  obtain ⟨signed, bits⟩ := w
  rcases Nat.le_total bits (i.natAbs.log2 + 2) with h | h
  · simp [fits, Nat.min_eq_left h]
  · have hi := lt_patterns i.natAbs
    have hsigned : patterns (i.natAbs.log2 + 1) ≤ patterns (bits - 1) := patterns_le (by omega)
    have hunsigned : patterns (i.natAbs.log2 + 2) = 2 * patterns (i.natAbs.log2 + 1) :=
      patterns_succ _
    have hbits : patterns (i.natAbs.log2 + 2) ≤ patterns bits := patterns_le h
    have hpred : i.natAbs.log2 + 2 - 1 = i.natAbs.log2 + 1 := rfl
    simp only [fits, Nat.min_eq_right h, contains, least, greatest, hpred]
    cases signed <;> rw [Bool.eq_iff_iff] <;> simp <;> omega

end IntWindow

/-- The native cell that holds a basic value. -/
inductive Storage where
  | integer (window : IntWindow)
  | double
  /-- A pointer to a string that ends at its first nul. -/
  | string
  deriving DecidableEq, Repr

inductive BasicType where
  | byte | boolean | int16 | uint16 | int32 | uint32 | int64 | uint64 | double
  | string | objectPath | signature | unixFd
  deriving DecidableEq, Repr

namespace BasicType

def char : BasicType → Char
  | byte => 'y'
  | boolean => 'b'
  | int16 => 'n'
  | uint16 => 'q'
  | int32 => 'i'
  | uint32 => 'u'
  | int64 => 'x'
  | uint64 => 't'
  | double => 'd'
  | string => 's'
  | objectPath => 'o'
  | signature => 'g'
  | unixFd => 'h'

def all : List BasicType :=
  [byte, boolean, int16, uint16, int32, uint32, int64, uint64, double,
    string, objectPath, signature, unixFd]

def ofChar? (c : Char) : Option BasicType := all.find? fun t => t.char == c

theorem ofChar?_char (t : BasicType) : ofChar? t.char = some t := by
  cases t <;> rfl

theorem char_of_ofChar? {c : Char} {t : BasicType} (h : ofChar? c = some t) : t.char = c := by
  simpa using List.find?_some h

/-- The range that values of an integer type are checked against. -/
def window? : BasicType → Option IntWindow
  | byte => some ⟨false, 8⟩
  | int16 => some ⟨true, 16⟩
  | uint16 => some ⟨false, 16⟩
  | int32 => some ⟨true, 32⟩
  | uint32 => some ⟨false, 32⟩
  | int64 => some ⟨true, 64⟩
  | uint64 => some ⟨false, 64⟩
  | unixFd => some ⟨true, 32⟩
  | boolean | double | string | objectPath | signature => none

def storage : BasicType → Storage
  | byte => .integer ⟨false, 8⟩
  | boolean => .integer ⟨false, 32⟩
  | int16 => .integer ⟨true, 16⟩
  | uint16 => .integer ⟨false, 16⟩
  | int32 => .integer ⟨true, 32⟩
  | uint32 => .integer ⟨false, 32⟩
  | int64 => .integer ⟨true, 64⟩
  | uint64 => .integer ⟨false, 64⟩
  | double => .double
  | string | objectPath | signature => .string
  | unixFd => .integer ⟨true, 32⟩

end BasicType

/-- The kinds of container in a message body. -/
inductive ContainerKind where
  | array | struct | dictEntry | variant
  deriving DecidableEq, Repr

namespace ContainerKind

/-- The character that opens the container's type in a signature. -/
def char : ContainerKind → Char
  | array => 'a'
  | struct => '('
  | dictEntry => '{'
  | variant => 'v'

/-- The number that stands for the container's type where types are numbers. -/
def code : ContainerKind → Nat
  | array => 'a'.toNat
  | struct => 'r'.toNat
  | dictEntry => 'e'.toNat
  | variant => 'v'.toNat

/-- The kind of container whose type a number stands for. -/
def ofCode? (n : Nat) : Option ContainerKind :=
  [array, struct, dictEntry, variant].find? fun k => k.code == n

end ContainerKind

/-- The number of no type. -/
def noType : Nat := 0

/-- The number of the type whose signature starts with the character.  Structs and
dict entries have numbers of their own, apart from their brackets. -/
def typeCode (c : Char) : Nat :=
  if c = '(' then ContainerKind.struct.code
  else if c = '{' then ContainerKind.dictEntry.code
  else c.toNat

inductive MessageKind where
  | methodCall | methodReturn | error | signal
  deriving DecidableEq, Repr

def MessageKind.code : MessageKind → Nat
  | .methodCall => 1
  | .methodReturn => 2
  | .error => 3
  | .signal => 4

/-- The buses that every host knows. -/
inductive WellKnownBus where
  | session | system
  deriving DecidableEq, Repr

def WellKnownBus.code : WellKnownBus → Nat
  | .session => 0
  | .system => 1

def errorFailed : String := "org.freedesktop.DBus.Error.Failed"

def errorNoMemory : String := "org.freedesktop.DBus.Error.NoMemory"

def errorInvalidSignature : String := "org.freedesktop.DBus.Error.InvalidSignature"

/-- The timeout that never ends, in milliseconds. -/
def timeoutInfinite : Int := 0x7fffffff

/-- The timeout that leaves the choice to the library. -/
def timeoutDefault : Int := -1

inductive Constant where
  | number (value : Int)
  | text (value : String)
  deriving DecidableEq, Repr

def constants : List (String × Constant) :=
  [("TYPE_INVALID", .number noType),
    ("TYPE_BYTE", .number (typeCode BasicType.byte.char)),
    ("TYPE_BOOLEAN", .number (typeCode BasicType.boolean.char)),
    ("TYPE_INT16", .number (typeCode BasicType.int16.char)),
    ("TYPE_UINT16", .number (typeCode BasicType.uint16.char)),
    ("TYPE_INT32", .number (typeCode BasicType.int32.char)),
    ("TYPE_UINT32", .number (typeCode BasicType.uint32.char)),
    ("TYPE_INT64", .number (typeCode BasicType.int64.char)),
    ("TYPE_UINT64", .number (typeCode BasicType.uint64.char)),
    ("TYPE_DOUBLE", .number (typeCode BasicType.double.char)),
    ("TYPE_STRING", .number (typeCode BasicType.string.char)),
    ("TYPE_OBJECT_PATH", .number (typeCode BasicType.objectPath.char)),
    ("TYPE_SIGNATURE", .number (typeCode BasicType.signature.char)),
    ("TYPE_UNIX_FD", .number (typeCode BasicType.unixFd.char)),
    ("TYPE_ARRAY", .number ContainerKind.array.code),
    ("TYPE_VARIANT", .number ContainerKind.variant.code),
    ("TYPE_STRUCT", .number ContainerKind.struct.code),
    ("TYPE_DICT_ENTRY", .number ContainerKind.dictEntry.code),
    ("MESSAGE_TYPE_METHOD_CALL", .number MessageKind.methodCall.code),
    ("MESSAGE_TYPE_METHOD_RETURN", .number MessageKind.methodReturn.code),
    ("MESSAGE_TYPE_ERROR", .number MessageKind.error.code),
    ("MESSAGE_TYPE_SIGNAL", .number MessageKind.signal.code),
    ("ERROR_FAILED", .text errorFailed),
    ("ERROR_NO_MEMORY", .text errorNoMemory),
    ("ERROR_INVALID_SIGNATURE", .text errorInvalidSignature),
    ("BUS_SESSION", .number WellKnownBus.session.code),
    ("BUS_SYSTEM", .number WellKnownBus.system.code),
    ("TIMEOUT_INFINITE", .number timeoutInfinite),
    ("TIMEOUT_USE_DEFAULT", .number timeoutDefault)]

end DBusHost
