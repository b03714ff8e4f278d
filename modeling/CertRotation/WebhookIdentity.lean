import CertRotation.Subject

namespace CertRotation

/-- The two kinds of admission webhook. -/
inductive WebhookKind where
  | mutating
  | validating
deriving DecidableEq, Repr

namespace WebhookKind

def name : WebhookKind → String
  | mutating => "mutating"
  | validating => "validating"

end WebhookKind

/-- A webhook, by the name of its service, the space the service lives in, and its kind. -/
structure WebhookIdentity where
  name : String
  space : String
  kind : WebhookKind
deriving DecidableEq, Repr

namespace WebhookIdentity

def text (id : WebhookIdentity) : String :=
  id.space ++ "/" ++ id.name ++ " (" ++ id.kind.name ++ ")"

/-- The name of the service inside the cluster. -/
def shortHostname (id : WebhookIdentity) : String :=
  id.name ++ "." ++ id.space ++ ".svc"

/-- The hosts the service answers on, the short name first. -/
def serviceHostnames (id : WebhookIdentity) : List String :=
  [id.shortHostname, id.shortHostname ++ ".cluster.local"]

/-- What the certificate of the authority is asked to say. -/
def caConfig (id : WebhookIdentity) (organization : List String) : SubjectConfig :=
  ⟨id.name ++ "-ca", organization, [], [], []⟩

/-- What the serving certificate is asked to say. -/
def leafConfig (id : WebhookIdentity) (organization : List String) : SubjectConfig :=
  ⟨id.shortHostname, organization, id.serviceHostnames, [], [.serverAuth]⟩

/-- Whether a character may stand in a label. -/
def isLabelChar (c : Char) : Bool :=
  ('a' ≤ c && c ≤ 'z') || ('0' ≤ c && c ≤ '9') || c == '-'

/-- Whether a text is a label: lower-case letters, digits and hyphens, none at either end. -/
def isLabel (text : String) : Bool :=
  text.toList.all isLabelChar && text.toList.head? != some '-' && text.toList.getLast? != some '-'

end WebhookIdentity

end CertRotation
