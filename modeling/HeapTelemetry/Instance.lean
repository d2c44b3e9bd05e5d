import HeapTelemetry.Error

/-! Who streams measurements: a running process of a service, and one session
of it. -/

namespace HeapTelemetry

/-- A running process of a service. -/
structure Instance where
  service : String
  name : String
  deriving DecidableEq, Repr, Inhabited

namespace Instance

/-- Names are limited to 255 bytes. -/
def maxNameBytes : Nat := 255

def checkName (field name : String) : Except Error Unit :=
  if name.isEmpty then .error (.emptyName field)
  else if name.utf8ByteSize > maxNameBytes then .error (.longName field)
  else .ok ()

/-- Both names are present and of sane length; the service is checked first. -/
def validate (i : Instance) : Except Error Unit := do
  checkName "service_name" i.service
  checkName "instance_name" i.name

def display (i : Instance) : String := i.service ++ "::" ++ i.name

end Instance

/-- One measurement stream of an instance, numbered by the registry. -/
structure Session where
  owner : Instance
  id : Int
  deriving DecidableEq, Repr, Inhabited

/-- The three parts joined as they are, so names holding `::` can collide. -/
def Session.key (s : Session) : String := s.owner.display ++ "::" ++ toString s.id

end HeapTelemetry
