import Muster.Fault
import Muster.Json.Writer
import Muster.Sorted
import Muster.Text.Blank

/-!
# Settings

The settings of the two roles of a node, which can be read and changed by name while it runs. Numbers are
positive; a text that does not fit a setting leaves it as it was, and the answer says why.
-/

namespace Muster

inductive Role
  | clusnode
  | headnode
  deriving DecidableEq, Repr

namespace Role

def name : Role → String
  | clusnode => "clusnode role"
  | headnode => "headnode role"

def ofName (name : String) : Except Fault Role :=
  if name = clusnode.name then .ok clusnode
  else if name = headnode.name then .ok headnode
  else .error (.configRole name)

end Role

structure Settings where
  /-- Seconds between two heartbeats. -/
  heartbeatInterval : Int := 1
  /-- Seconds without a heartbeat after which a node is lost. -/
  heartbeatTimeout : Int := 5
  maxJobCount : Int := 100
  /-- Whether the output of jobs is kept in files. -/
  storeOutput : Bool := true
  deriving DecidableEq, Repr

inductive Setting
  | heartbeatInterval
  | heartbeatTimeout
  | maxJobCount
  | storeOutput
  deriving DecidableEq, Repr

/-- What a setting holds. -/
inductive SettingValue
  | number (n : Int)
  | toggle (b : Bool)
  deriving DecidableEq, Repr

def SettingValue.text : SettingValue → String
  | number n => toString n
  | toggle b => toString b

def SettingValue.toJson : SettingValue → Json
  | number n => Json.whole n
  | toggle b => .bool b

/-- Why a text is no value of a setting. -/
inductive SettingFault
  | unknown
  | noToggle (typed : String)
  | noNumber (typed : String)
  | notPositive
  deriving DecidableEq, Repr

def SettingFault.message : SettingFault → String
  | unknown => "Invalid config name"
  | noToggle typed => "Failed to parse " ++ Text.quoted typed ++ " as bool"
  | noNumber typed => "Failed to parse " ++ Text.quoted typed ++ " as int"
  | notPositive => "Value should be positive"

namespace Setting

def name : Setting → String
  | heartbeatInterval => "heartbeat interval in seconds"
  | heartbeatTimeout => "mark node lost after no heartbeat for seconds"
  | maxJobCount => "max job count"
  | storeOutput => "store output"

/-- The settings of a role, in the order of their names. -/
def ofRole : Role → List Setting
  | .clusnode => [heartbeatInterval]
  | .headnode => [heartbeatTimeout, maxJobCount, storeOutput]

def ofName? (role : Role) (name : String) : Option Setting :=
  (ofRole role).find? fun setting => setting.name == name

def readToggle (typed : String) : Except SettingFault SettingValue :=
  if typed = "true" then .ok (.toggle true)
  else if typed = "false" then .ok (.toggle false)
  else .error (.noToggle typed)

def readNumber (typed : String) : Except SettingFault SettingValue :=
  match Text.int64? typed.toList with
  | none => .error (.noNumber typed)
  | some n => if 0 < n then .ok (.number n) else .error .notPositive

/-- Reads a value of a setting; blanks around it do not count. -/
def read (setting : Setting) (typed : String) : Except SettingFault SettingValue :=
  let typed := Text.trim typed
  match setting with
  | storeOutput => readToggle typed
  | _ => readNumber typed

end Setting

namespace Settings

def value (s : Settings) : Setting → SettingValue
  | .heartbeatInterval => .number s.heartbeatInterval
  | .heartbeatTimeout => .number s.heartbeatTimeout
  | .maxJobCount => .number s.maxJobCount
  | .storeOutput => .toggle s.storeOutput

/-- Puts a value of the right kind; another one changes nothing. -/
def put (s : Settings) : Setting → SettingValue → Settings
  | .heartbeatInterval, .number n => { s with heartbeatInterval := n }
  | .heartbeatTimeout, .number n => { s with heartbeatTimeout := n }
  | .maxJobCount, .number n => { s with maxJobCount := n }
  | .storeOutput, .toggle b => { s with storeOutput := b }
  | _, _ => s

/-- Sets one setting from a text and tells its new value, or why it is as before. -/
def change (s : Settings) (role : Role) (name typed : String) : Settings × String :=
  match Setting.ofName? role name with
  | none => (s, SettingFault.unknown.message)
  | some setting =>
    match setting.read typed with
    | .ok value => (s.put setting value, value.text)
    | .error fault => (s, fault.message)

/-- Sets settings one after the other, with an answer for each name. -/
def changeAll (s : Settings) (role : Role) : List (String × String) → Settings × List (String × String)
  | [] => (s, [])
  | (name, typed) :: rest =>
    let (s, message) := s.change role name typed
    let (s, messages) := s.changeAll role rest
    (s, (name, message) :: messages)

/-- Sets settings of a role by name. -/
def set (s : Settings) (role : Role) (configs : SortedMap String String) :
    Settings × SortedMap String String :=
  let (s, messages) := s.changeAll role configs.toList
  (s, SortedMap.ofList messages)

/-- The settings of a role, as texts by name. -/
def get (s : Settings) (role : Role) : SortedMap String String :=
  SortedMap.ofList ((Setting.ofRole role).map fun setting => (setting.name, (s.value setting).text))

/-- Takes over what a document has saved for a setting; a value that does not fit is passed over. -/
def loadOne (s : Settings) (saved : Json.Members) (setting : Setting) : Settings :=
  match Sorted.look setting.name saved with
  | none => s
  | some v =>
    let typed := match v with
      | .string text => text
      | v => v.compact
    match setting.read typed with
    | .ok value => s.put setting value
    | .error _ => s

def load (s : Settings) (role : Role) (saved : Json.Members) : Settings :=
  (Setting.ofRole role).foldl (fun s setting => s.loadOne saved setting) s

/-- Puts the settings of a role into what is saved for it. -/
def save (s : Settings) (role : Role) (saved : Json.Members) : Json.Members :=
  (Setting.ofRole role).foldl
    (fun saved setting => Sorted.put setting.name (s.value setting).toJson saved) saved

end Settings

end Muster
