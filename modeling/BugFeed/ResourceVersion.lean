import BugFeed.Text.Quoted
import BugFeed.Time.Rfc3339
import BugFeed.Time.Written

/-!
# Resource versions

A resource version is a watermark on the time line: every change up to and including its instant
has been observed. Searches filter at whole seconds, so its token is the text of its second, and
the first instant that it has not covered is the second after that one.
-/

namespace BugFeed

set_option autoImplicit false

/-- A watermark: every change up to and including its instant has been observed. -/
structure ResourceVersion where
  time : Instant
  deriving DecidableEq, Repr

/-- A token that is no resource version. -/
structure TokenFault where
  token : String
  flaw : Rfc3339.Flaw
  deriving DecidableEq, Repr

def TokenFault.message (f : TokenFault) : String :=
  "invalid resource version " ++ Text.quoted f.token ++ ": " ++ f.flaw.message

namespace ResourceVersion

/-- The version that a token denotes. The empty token denotes the beginning of time. -/
def parse (token : String) : Except TokenFault ResourceVersion :=
  if token.isEmpty then .ok ⟨Instant.epoch⟩
  else
    match Rfc3339.read token with
    | .ok t => .ok ⟨t⟩
    | .error flaw => .error ⟨token, flaw⟩

def display (v : ResourceVersion) : String := v.time.display

/-- The version at the beginning of its second. -/
def truncate (v : ResourceVersion) : ResourceVersion := ⟨v.time.truncate⟩

/-- The first instant that a search can observe and the version has not covered; none at the end
of the supported range. -/
def nextVisible? (v : ResourceVersion) : Option ResourceVersion :=
  (v.truncate.time.nextSecond?).map ResourceVersion.mk

def isAfter (a b : ResourceVersion) : Bool := b.time < a.time

def latest (a b : ResourceVersion) : ResourceVersion := if b.isAfter a then b else a

/-- The version a length later, none if the length or the result is out of range. -/
def add? (v : ResourceVersion) (length : Span) : Option ResourceVersion :=
  (v.time.add? length).map ResourceVersion.mk

/-- Nanoseconds from `present` to the version, zero if it has passed. -/
def nanosFrom (present : Instant) (v : ResourceVersion) : Nat := v.time.nanosFrom present

end ResourceVersion

end BugFeed
