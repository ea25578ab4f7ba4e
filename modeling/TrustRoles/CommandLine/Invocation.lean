import TrustRoles.CommandLine.Arguments
import TrustRoles.Settings.Document

namespace TrustRoles.CommandLine

inductive Command where
  | inspect (paths : List Path) (format : Option ReportFormat) (listed verbose : Bool)
  | showSettings
  | createSettings
  | showPath
  | exportSettings (format : SettingsFormat) (output : Option Path)
  deriving DecidableEq, Repr

structure Invocation where
  settingsPath : Option Path
  command : Command
  deriving DecidableEq, Repr

namespace Invocation

def settingsOption : OptionForm := ⟨"config", none, .file⟩

def helpOption : OptionForm := ⟨"help", some 'h', .stopping .help⟩

def versionOption : OptionForm := ⟨"version", some 'V', .stopping .version⟩

def top : Level :=
  ⟨[settingsOption, helpOption, versionOption], ["inspect", "config", "help"], false⟩

def inspecting : Level :=
  ⟨[settingsOption, helpOption, ⟨"format", some 'f', .oneOf (ReportFormat.all.map ReportFormat.name)⟩,
    ⟨"list", some 'l', .nothing⟩, ⟨"verbose", some 'v', .nothing⟩], [], true⟩

def configuring : Level :=
  ⟨[settingsOption, helpOption], ["show", "init", "path", "export", "help"], false⟩

def plain : Level :=
  ⟨[settingsOption, helpOption], [], false⟩

def exporting : Level :=
  ⟨[settingsOption, helpOption,
    ⟨"format", some 'f', .oneOf (SettingsFormat.all.map SettingsFormat.name)⟩,
    ⟨"output", some 'o', .file⟩], [], false⟩

def path? (g : Given) (option : String) : Option Path :=
  (g.value? option).map Path.mk

def settingsPath? (g : Given) : Option Path :=
  path? g "config"

def ofInspecting (g : Given) : Command :=
  .inspect (g.words.map Path.mk) ((g.value? "format").bind ReportFormat.ofName?) (g.has "list")
    (g.has "verbose")

def ofExporting (g : Given) : Command :=
  .exportSettings (((g.value? "format").bind SettingsFormat.ofName?).getD .toml) (path? g "output")

def commandsBelow : String → List String
  | "config" => configuring.commands
  | _ => []

def helpOn : List String → List String → Stop
  | _, [] => .help
  | commands, word :: words =>
      if commands.contains word then helpOn (commandsBelow word) words
      else .misuse (.unexpectedWord word)

def within (outer : Option Path) (l : Level) (args : List String) (command : Given → Command) :
    Except Stop Invocation := do
  let (g, _) ← l.scan .start args
  pure ⟨(settingsPath? g).or outer, command g⟩

def ofConfiguring (outer : Option Path) (args : List String) : Except Stop Invocation := do
  let (g, rest) ← configuring.scan .start args
  let outer := (settingsPath? g).or outer
  match rest with
  | "show" :: rest => within outer plain rest fun _ => .showSettings
  | "init" :: rest => within outer plain rest fun _ => .createSettings
  | "path" :: rest => within outer plain rest fun _ => .showPath
  | "export" :: rest => within outer exporting rest ofExporting
  | "help" :: rest => .error (helpOn configuring.commands rest)
  | _ => .error (.misuse .missingCommand)

def ofArguments (args : List String) : Except Stop Invocation := do
  let (g, rest) ← top.scan .start args
  match rest with
  | "inspect" :: rest => within (settingsPath? g) inspecting rest ofInspecting
  | "config" :: rest => ofConfiguring (settingsPath? g) rest
  | "help" :: rest => .error (helpOn top.commands rest)
  | _ => .error (.misuse .missingCommand)

end Invocation

end TrustRoles.CommandLine
