import TrustRoles.Criterion
import TrustRoles.Path
import TrustRoles.Role

namespace TrustRoles

inductive Severity where
  | trace
  | debug
  | info
  deriving DecidableEq, Repr

def Severity.name : Severity → String
  | trace => "TRACE"
  | debug => "DEBUG"
  | info => "INFO"

def Severity.isShownAt (level : String) : Severity → Bool
  | trace => level.map Char.toLower == "trace"
  | debug => ["debug", "trace"].contains (level.map Char.toLower)
  | info => ["info", "debug", "trace"].contains (level.map Char.toLower)

inductive Notice where
  | inventory (count : Nat)
  | inventoried (position : Nat) (m : Member)
  | seeking (role : Role)
  | selectingByUsage (u : Usage)
  | selectingByPathLength (least : UInt32)
  | noneFound
  | found (count : Nat) (c : Criterion)
  | chosen (role : Role) (m : Member)
  | recalled (place : Nat)
  | resolving (place : Nat)
  | swept (count : Nat)
  | forgotten (place : Nat)
  | fileLoaded (count : Nat) (p : Path)
  | filesLoaded (count paths : Nat)
  | inspecting (paths : Nat)
  | resolved (a : Assignment)
  | settingsLoading (p : Path)
  | settingsCreating (p : Path)
  | settingsSaving (p : Path)
  | settingsSaved
  deriving DecidableEq, Repr

namespace Notice

def severity : Notice → Severity
  | recalled _ => .trace
  | filesLoaded _ _ | inspecting _ | resolved _ | settingsLoading _ | settingsCreating _
  | settingsSaving _ | settingsSaved => .info
  | _ => .debug

def text (address : Nat → String) : Notice → String
  | inventory count => toString count ++ " certificate(s) found in collection"
  | inventoried position m => toString position ++ ". " ++ m.label
  | seeking role => "Looking for " ++ role.description
  | selectingByUsage u => "Selecting candidate with keyUsage:" ++ u.name
  | selectingByPathLength least =>
      "Selecting candidate with basicConstraints pathLen >= " ++ toString least.toNat
  | noneFound => "No certificates found"
  | found count c => "Found " ++ toString count ++ " certificate(s) with " ++ c.text
  | chosen role m => "Chosen certificate " ++ m.label ++ " for " ++ role.description
  | recalled place => "Role set cache hit for collection 0x" ++ address place
  | resolving place => "Resolving roles for collection 0x" ++ address place
  | swept count => "Pruned " ++ toString count ++ " role set(s) for dropped collections"
  | forgotten place => "Invalidated role set for collection 0x" ++ address place
  | fileLoaded count p => "Loaded " ++ toString count ++ " certificate(s) from " ++ p.text
  | filesLoaded count paths =>
      "Loaded " ++ toString count ++ " certificate(s) from " ++ toString paths ++ " path(s)"
  | inspecting paths => "Inspecting " ++ toString paths ++ " certificate path(s)"
  | resolved a =>
      "Resolved roles: signer " ++ a.signer.label ++ ", recipient " ++ a.recipient.label ++
        ", issuer " ++ a.issuer.label
  | settingsLoading p => "Loading configuration from: " ++ p.text
  | settingsCreating p => "Configuration file not found, creating default: " ++ p.text
  | settingsSaving p => "Saving configuration to: " ++ p.text
  | settingsSaved => "Configuration saved successfully"

end Notice

end TrustRoles
