import Discussion.Settings.Basic
import Discussion.Settings.Document
import Discussion.Settings.Environment

namespace Discussion

namespace AreaOptions

/-- Options that are not set keep their usual values. -/
def ofSetting (s : Setting) : Except SettingsError AreaOptions := do
  let names :=
    ["allow_replies", "allow_upvotes", "allow_realname", "allow_pseudonym", "allow_subscriptions"]
  let values ← (← s.fieldValues names).mapM fun value => value.mapM Setting.toBool
  let usual : AreaOptions := {}
  match values with
  | [replies, upvotes, realname, pseudonym, subscriptions] =>
    return {
      allowReplies := replies.getD usual.allowReplies
      allowUpvotes := upvotes.getD usual.allowUpvotes
      allowRealname := realname.getD usual.allowRealname
      allowPseudonym := pseudonym.getD usual.allowPseudonym
      allowSubscriptions := subscriptions.getD usual.allowSubscriptions }
  | _ => throw .wrongShape

end AreaOptions

namespace Settings

/-- The settings that hold where nothing else is set. -/
def defaultTree : Setting :=
  let usual : Settings := {}
  .table [
    ("comments", .table [
      ("default_page_size", .int usual.defaultPageSize),
      ("enabled", .bool usual.enabled),
      ("max_editing_time_secs", .int usual.maxEditingSeconds),
      ("max_page_size", .int usual.maxPageSize)]),
    ("database", .table [("url", .text usual.databaseUrl)])]

/-- Sets the value at the end of a path. -/
def change (tree : Setting) (path : SettingPath) (value : Setting) : Except SettingsError Setting :=
  match tree.placeAt? path value with
  | some tree => pure tree
  | none => throw .badIndex

/-- Lays the fields of a document over a tree. A key that reads as a path is one. -/
def overlay (tree : Setting) (fields : Dictionary Setting) : Except SettingsError Setting :=
  fields.foldlM (fun tree e =>
    match SettingPath.ofText? e.1 with
    | some path => change tree path e.2
    | none => pure (tree.place e.1 e.2)) tree

def field {α : Type} (values : List (Option α)) (i : Nat) : Except SettingsError α :=
  match values[i]?.join with
  | some value => pure value
  | none => throw .wrongShape

/-- The value of each area of each component. -/
def areasOf (s : Setting) : Except SettingsError (Dictionary (Dictionary AreaOptions)) := do
  (← s.entries).mapM fun component => do
    let areas ← (← component.2.entries).mapM fun area => do
      return (area.1, ← AreaOptions.ofSetting area.2)
    return (component.1, areas)

/-- Reads the settings of a tree. Unknown keys are skipped. -/
def ofTree (tree : Setting) : Except SettingsError Settings := do
  match ← tree.fieldValues ["database", "comments", "areas"] with
  | [some database, some comments, areas] =>
    let texts ← (← database.fieldValues ["url"]).mapM fun value => value.mapM Setting.toText
    let flags ← (← comments.fieldValues ["enabled"]).mapM fun value => value.mapM Setting.toBool
    let names := ["enabled", "max_editing_time_secs", "max_page_size", "default_page_size"]
    let numbers ← ((← comments.fieldValues names).drop 1).mapM fun value =>
      value.mapM Setting.toInt
    let areas ← match areas with
      | some areas => areasOf areas
      | none => pure []
    return {
      databaseUrl := ← field texts 0
      enabled := ← field flags 0
      maxEditingSeconds := ← field numbers 0
      maxPageSize := ← field numbers 1
      defaultPageSize := ← field numbers 2
      areas }
  | _ => throw .wrongShape

/-- The settings of one document. -/
def ofDocument (text : String) : Except SettingsError Settings := do
  let document ← overlay (.table []) (← Format.toml.read text)
  ofTree (← overlay defaultTree document.fields)

def overlayFile (files : Dictionary String) (tree : Setting) (name : String) :
    Except SettingsError Setting :=
  match document? files name with
  | some (format, text) => do overlay tree (← format.read text)
  | none => pure tree

/-- The settings that the environment sets, with their paths. -/
def overrides (environment : Dictionary String) :
    Except SettingsError (List (SettingPath × Setting)) :=
  (environment.filterMap fun v => (Environment.settingOf? v.1).map (·, v.2)).mapM fun e =>
    match SettingPath.ofText? e.1 with
    | some path => pure (path, .text e.2)
    | none => throw .brokenName

/-- The settings of a site: the usual ones, the file of all sites, the file of the mode that the
site runs in, and the environment. What comes later counts; the files are laid over each other
before they are laid over the usual settings. -/
def load (environment files : Dictionary String) : Except SettingsError Settings := do
  let mode := (Dictionary.find? environment "RUN_MODE").getD "development"
  let changes ← overrides environment
  let tree ← overlayFile files (.table []) "comments"
  let tree ← overlayFile files tree ("comments." ++ mode)
  let tree ← overlay defaultTree tree.fields
  ofTree (← changes.foldlM (fun tree c => change tree c.1 c.2) tree)

end Settings

end Discussion
