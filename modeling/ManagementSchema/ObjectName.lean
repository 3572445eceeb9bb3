-- Names of managed objects: a domain, a colon and key properties. The order
-- in which the properties are written does not matter.

import ManagementSchema.Dictionary
import ManagementSchema.Text.Cut
import ManagementSchema.Text.Quoted

namespace ManagementSchema

/-- A domain with at least one key property. -/
structure ObjectName where
  domain : String
  properties : Dictionary String
  deriving DecidableEq

namespace ObjectName

/-- Why a text, or a domain with properties, is no object name. -/
inductive Fault where
  | noColon (text : String)
  | notKeyValue (text property : String)
  | emptyKey (domain key value : String)
  | emptyValue (domain key value : String)
  | reservedCharacter (domain key value : String)
  | duplicateKey (domain key : String)
  | colonInDomain (domain : String)
  | noProperties (domain : String)
  deriving DecidableEq, Repr

/-- What was refused, as messages show it. -/
def Fault.input : Fault → String
  | .noColon text | .notKeyValue text _ => Text.quoted text
  | .emptyKey domain key value | .emptyValue domain key value
  | .reservedCharacter domain key value => domain ++ ":" ++ key ++ "=" ++ value
  | .duplicateKey domain _ | .colonInDomain domain | .noProperties domain => Text.quoted domain

/-- The wording of a fault. -/
def Fault.message : Fault → String
  | .noColon _ => "missing ':' after domain"
  | .notKeyValue _ property => "key property " ++ Text.quoted property ++ " is not key=value"
  | .emptyKey .. => "empty key"
  | .emptyValue _ key _ => "empty value for key " ++ Text.quoted key
  | .reservedCharacter .. => "key properties must not contain ',', '=' or ':'"
  | .duplicateKey _ key => "duplicate key " ++ Text.quoted key
  | .colonInDomain _ => "domain must not contain ':'"
  | .noProperties _ => "at least one key property is required"

/-- The characters that separate the parts of a name. -/
def isReserved (c : Char) : Bool := c == ',' || c == '=' || c == ':'

/-- Some character of the text is reserved. -/
def hasReserved (s : String) : Bool := s.toList.any isReserved

/-- A property has a key and a value, both free of reserved characters. -/
def checkProperty (domain key value : String) : Except Fault Unit :=
  if key.isEmpty then .error (.emptyKey domain key value)
  else if value.isEmpty then .error (.emptyValue domain key value)
  else if hasReserved key || hasReserved value then .error (.reservedCharacter domain key value)
  else .ok ()

/-- Adds properties to those found so far. -/
def addProperties (domain : String) :
    Dictionary String → List (String × String) → Except Fault (Dictionary String)
  | found, [] => .ok found
  | found, (key, value) :: rest => do
    checkProperty domain key value
    if (found.get? key).isSome then throw (.duplicateKey domain key)
    addProperties domain (found.insert key value) rest

/-- The name with a domain and properties. -/
def ofProperties (domain : String) (properties : List (String × String)) :
    Except Fault ObjectName := do
  let found ← addProperties domain .empty properties
  if ':' ∈ domain.toList then throw (.colonInDomain domain)
  if found.entries.isEmpty then throw (.noProperties domain)
  return ⟨domain, found⟩

/-- Takes one written property apart. -/
def readProperty (text : String) (property : List Char) : Except Fault (String × String) :=
  match Text.cut '=' property with
  | some (key, value) => .ok (String.ofList key, String.ofList value)
  | none => .error (.notKeyValue text (String.ofList property))

/-- Reads a name: the domain ends at the first colon, and commas separate the properties. -/
def read (text : String) : Except Fault ObjectName := do
  let some (domain, rest) := Text.cut ':' text.toList | throw (.noColon text)
  let properties ← (Text.splitAll ',' rest).mapM (readProperty text)
  ofProperties (String.ofList domain) properties

/-- The properties in the order of their keys. -/
def keyList (n : ObjectName) : String :=
  Text.join "," (n.properties.entries.map fun (key, value) => key ++ "=" ++ value)

/-- The one written form of the name. -/
def canonical (n : ObjectName) : String := n.domain ++ ":" ++ n.keyList

/-- The order of names: by domain, then by the written properties. -/
protected def compare (a b : ObjectName) : Ordering :=
  (Ord.compare a.domain b.domain).then (Ord.compare a.keyList b.keyList)

end ObjectName

end ManagementSchema
