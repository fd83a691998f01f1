import DBusHost.Decimal.Layout
import DBusHost.Text.Quoted
import DBusHost.Value.Basic

/-!
# The text of a value

Values are shown in the notation of the host: texts are quoted, collections are
bracketed, and the D-Bus kinds are named in front of a pair of parentheses.
-/

namespace DBusHost

def Binary64.render (x : Binary64) : String := Decimal.Layout.standard.write x

/-- A name with its contents in parentheses. -/
def call (name inside : String) : String := name ++ "(" ++ inside ++ ")"

/-- The text of a list's items. -/
def bracketed (items : List String) : String := "[" ++ String.intercalate ", " items ++ "]"

/-- The text of a tuple's items; a single item is followed by a comma. -/
def parenthesized : List String → String
  | [x] => "(" ++ x ++ ",)"
  | items => "(" ++ String.intercalate ", " items ++ ")"

/-- The text of a map's entries. -/
def braced (entries : List String) : String :=
  "\x7b" ++ String.intercalate ", " entries ++ "\x7d"

def Signature.render (g : Signature) : String := call "Signature" (Text.quoted g.text)

/-- The text of a typed container from its name and the text of its contents; the
level is left out when it is zero. -/
def Tag.render (t : Tag) (maker contents : String) : String :=
  let signature := match t.signature with
    | some g => g.render
    | none => "None"
  let level :=
    if 0 < t.level.toNat then ", variant_level=" ++ toString t.level.toNat else ""
  call maker (contents ++ ", signature=" ++ signature ++ level)

namespace Value

mutual

def render : Value → String
  | null => "None"
  | bool b => if b then "True" else "False"
  | int i => toString i
  | descriptor i => call "UnixFD" (toString i)
  | double x => x.render
  | text s => Text.quoted s
  | path s => call "ObjectPath" (Text.quoted s)
  | signature g => g.render
  | bytes bs => "b" ++ Text.quotedBytes bs
  | buffer bs => call "bytearray" ("b" ++ Text.quotedBuffer bs)
  | list xs => bracketed (renderItems xs)
  | tuple xs => parenthesized (renderItems xs)
  | map es => braced (renderEntries es)
  | array xs t => t.render "Array" (bracketed (renderItems xs))
  | dictionary es t => t.render "Dictionary" (braced (renderEntries es))
  | struct xs t => t.render "Struct" (parenthesized (renderItems xs))
  | object kind => "<" ++ kind ++ " object>"
termination_by structural v => v

def renderItems : List Value → List String
  | [] => []
  | x :: xs => render x :: renderItems xs
termination_by structural xs => xs

def renderEntries : List (Value × Value) → List String
  | [] => []
  | (k, v) :: es => (render k ++ ": " ++ render v) :: renderEntries es
termination_by structural es => es

end

/-- A value in running text: text stands as it is. -/
def plain (v : Value) : String := v.text?.getD v.render

end Value

end DBusHost
