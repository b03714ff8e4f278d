import CertRotation.IpAddress
import CertRotation.Text.Unprintable

namespace CertRotation

namespace Text

def escape (c : Char) : List Char :=
  match c with
  | '"' => ['\\', '"']
  | '\\' => ['\\', '\\']
  | '\n' => ['\\', 'n']
  | '\t' => ['\\', 't']
  | '\r' => ['\\', 'r']
  | '\x00' => ['\\', '0']
  | c =>
    if isPrintable c then [c]
    else ['\\', 'u', '\x7b'] ++ Nat.toDigits 16 c.toNat ++ ['\x7d']

def quoted (text : String) : String :=
  String.ofList ('"' :: text.toList.flatMap escape ++ ['"'])

end Text

/-- A host name or an address. -/
inductive SubjectAltName where
  | dns (name : String)
  | ip (address : IpAddress)
deriving DecidableEq, Repr

namespace SubjectAltName

/-- The host name, if it is one. -/
def dns? : SubjectAltName → Option String
  | dns name => some name
  | ip _ => none

def ip? : SubjectAltName → Option IpAddress
  | dns _ => none
  | ip address => some address

/-- The text in messages: the kind, and the name quoted or the address plain. -/
def text : SubjectAltName → String
  | dns name => "Dns(" ++ Text.quoted name ++ ")"
  | ip address => "Ip(" ++ String.ofList address.text ++ ")"

end SubjectAltName

/-- A list in messages: brackets, and a comma and a blank between items. -/
def listText (items : List String) : String :=
  "[" ++ ", ".intercalate items ++ "]"

end CertRotation
