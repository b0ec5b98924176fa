import FeatureRun.Catalog.Selection
import FeatureRun.Catalog.Target
import FeatureRun.Report.Reading
import FeatureRun.Runner.Basic
import FeatureRun.Store.Basic
import FeatureRun.Workspace.Surroundings

/-!
# Faults

Why an operation on a workspace fails, by where the trouble lies. The kind of a fault decides who
handles it: faults of values that were given are reported, those of the machine are passed on.
-/
set_option autoImplicit false

namespace FeatureRun

inductive Fault where
  | settings (e : Settings.ConfigError)
  | text (e : TextFault)
  | file (e : FileFault)
  | id (e : Text.NumeralError)
  | store (e : StoreFault)
  | report (e : Report.ReportError)
  /-- A report is too much for its reader. -/
  | excess (e : Json.Excess)
  | selection (e : SelectionFault)
  | target (e : TargetFault)
  | runner (e : Runner.Fault)
  /-- The system does not start a program. -/
  | system (e : Runner.SystemFault)
  | nap (e : NapFault)
  /-- A text cannot be stored or printed, or given to the system. -/
  | unencodable (e : Text.EncodeFault)
  /-- There is no room for a piece of work. -/
  | tooDeep

def Fault.message : Fault → String
  | .settings e => e.message
  | .text e => e.message
  | .file e => e.message
  | .id e => e.message
  | .store e => e.message
  | .report e => e.message
  | .excess e => e.message
  | .selection e => e.message
  | .target e => e.message
  | .runner e => e.message
  | .system e => e.message
  | .nap e => e.message
  | .unencodable e => e.message
  | .tooDeep => "maximum recursion depth exceeded"

inductive Fault.Kind where
  | settings
  | report
  | runner
  | value
  /-- A number without any character. -/
  | position
  /-- A number that is too large. -/
  | magnitude
  /-- A word that is none of those expected. -/
  | word
  /-- A text that has not the form expected. -/
  | form
  /-- A collection where there should be text. -/
  | type
  /-- Something that never ends. -/
  | depth
  | encoding
  /-- A text that has no bytes. -/
  | text
  | file (kind : FileFault.Kind)
  /-- Any other error of the system, by its number. -/
  | system (number : Nat)
  | full
  | other
  deriving DecidableEq, Repr

/-- Whether something that was given is at fault. -/
def Fault.Kind.isValue : Fault.Kind → Bool
  | .settings => true
  | .report => true
  | .value => true
  | .encoding => true
  | .text => true
  | _ => false

/-- Whether the system is at fault. -/
def Fault.Kind.isSystem : Fault.Kind → Bool
  | .file _ => true
  | .system _ => true
  | _ => false

/-- A path that no system was asked about is a bad value. -/
def Fault.kindOfFile (f : FileFault) : Kind := if f.kind = .nul then .value else .file f.kind

def Fault.kindOfText : TextFault → Kind
  | .file f => kindOfFile f
  | .encoding _ => .encoding

def Fault.kindOfRefusal : Yaml.Refusal → Kind
  | .empty => .position
  | .tooLarge => .magnitude
  | .noCode => .magnitude
  | .unknownWord _ => .word
  | .formless => .form
  | .notText => .type
  | .endless => .depth
  | .other _ => .other
  | _ => .value

def Fault.kindOfSettings : Settings.ConfigError → Kind
  | .refused r => kindOfRefusal r
  | .tooLarge => .magnitude
  | _ => .settings

def Fault.kindOfStore : StoreFault → Kind
  | .badId _ => .value
  | .tooLarge => .magnitude
  | .full => .full

def Fault.kindOfTarget : TargetFault → Kind
  | .unreadable f => kindOfText f
  | _ => .value

def Fault.kindOfExcess : Json.Excess → Kind
  | .digits _ => .value
  | .depth _ => .depth

def Fault.kindOfNap : NapFault → Kind
  | .noNumber => .value
  | .negative => .value
  | .tooLong => .magnitude
  | .refused => .system 22

def Fault.kind : Fault → Kind
  | .settings e => kindOfSettings e
  | .text e => kindOfText e
  | .file e => kindOfFile e
  | .id _ => .value
  | .store e => kindOfStore e
  | .report _ => .report
  | .excess e => kindOfExcess e
  | .selection _ => .value
  | .target e => kindOfTarget e
  | .runner _ => .runner
  | .system e => .system e.number
  | .nap e => kindOfNap e
  | .unencodable _ => .text
  | .tooDeep => .depth

def Fault.ofReport : Report.TextError → Fault
  | .report e => .report e
  | .excess e => .excess e

end FeatureRun
