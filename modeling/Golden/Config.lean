import Golden.Files
import Golden.Text.Utf8
import Golden.Toml.Parser
import Golden.Toml.Printer

/-!
# Golden.Config — the settings of a comparison

Settings say what is shown, who is told, how much two screenshots may differ, and where pictures of
their differences go.  The default is the strictest and quietest of all.

Settings are kept in a text with three sections (`toText`, `ofText?`).  Reading takes the default
for whatever is not there and passes over what it does not know, but a known setting must have a
value of its kind.  A ratio outside the range from zero to one is refused (`check`) when settings
are loaded, not when they are saved.
-/

namespace Golden

structure Config where
  /-- Show both texts in full behind a comparison of texts. -/
  verbose : Bool
  teamCity : Bool
  gitHub : Bool
  /-- The highest error ratio that still passes. -/
  maxErrorRatio : Float
  /-- Where pictures of differences go; nowhere if there is no place for them. -/
  diffDirectory : Option Path

namespace Config

def default : Config := ⟨false, false, false, 0, none⟩

/-- Refuse a ratio that is not a number from zero to one. -/
def check (c : Config) : Except Failure Unit :=
  if 0 ≤ c.maxErrorRatio ∧ c.maxErrorRatio ≤ 1 then .ok ()
  else .error (.ratioOutOfRange c.maxErrorRatio)

/-- The settings for a run under GitHub Actions, which is to be told in any case. -/
def underActions (c : Config) (isUnderActions : Bool) : Config :=
  if isUnderActions then { c with gitHub := true } else c

/-- The names of the settings and of their sections. -/
def sections (c : Config) : List Toml.Section :=
  [⟨none, [("verbose", .boolean c.verbose)]⟩,
    ⟨some "annotations",
      [("teamcity", .boolean c.teamCity), ("github_actions", .boolean c.gitHub)]⟩,
    ⟨some "screenshot",
      ("max_error_ratio", .float c.maxErrorRatio)
        :: c.diffDirectory.toList.map fun dir => ("diff_dir", .text dir.text)⟩]

def toText (c : Config) : String := String.ofList (Toml.writeSections c.sections)

/-- A setting's value, or its default if it is not there. -/
def setting {α : Type} (read : Toml.Value → Option α) (default : α) : Option Toml.Value → Option α
  | none => some default
  | some value => read value

/-- The parts of a section, none if it is not there. -/
def sectionFields (entries : Toml.Entries) (name : String) : Option Toml.Fields :=
  setting Toml.Value.fields? (.named []) (entries.lookup name)

/-- The settings that a table gives. -/
def ofEntries? (entries : Toml.Entries) : Option Config := do
  let verbose ← setting Toml.Value.boolean? false (entries.lookup "verbose")
  let annotations ← sectionFields entries "annotations"
  let screenshot ← sectionFields entries "screenshot"
  return {
    verbose
    teamCity := ← setting Toml.Value.boolean? false (annotations.get? "teamcity" 0)
    gitHub := ← setting Toml.Value.boolean? false (annotations.get? "github_actions" 1)
    maxErrorRatio := ← setting Toml.Value.float? 0 (screenshot.get? "max_error_ratio" 0)
    diffDirectory :=
      ← setting (fun v => v.text?.map fun s => some ⟨s⟩) none (screenshot.get? "diff_dir" 1) }

def ofText? (text : String) : Option Config := (Toml.parse text).bind ofEntries?

/-- **Load settings.**  Where there is no file, they are the default. -/
def load (fs : Files) (p : Path) : Except Failure Config := do
  if !fs.exists? p then return default
  let text ← (fs.readText p textOfBytes?).mapError .io
  match ofText? text with
  | none => .error .configurationText
  | some c =>
    c.check
    return c

/-- **Save settings**, making the directories the file lies in. -/
def save (fs : Files) (p : Path) (c : Config) : Attempt Unit :=
  let made := fs.makeParent p
  match made.stopped with
  | some cause => ⟨made.files, .error (.io cause)⟩
  | none =>
    match made.files.write p (.raw (bytesOfText c.toText)) with
    | .error cause => ⟨made.files, .error (.io cause)⟩
    | .ok written => ⟨written, .ok ()⟩

end Config

end Golden
