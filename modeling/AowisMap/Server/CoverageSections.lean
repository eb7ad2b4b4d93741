/-
The coverage sections of the configuration file (`loadConfigFile`): every
`zoom_N` starts a tier that ends before the next one.

# What is read

The INI reader is Qt's: a group is its name and the keys in it, each with
the list of texts its value reads as (`QVariant::toStringList`).
-/
import AowisMap.Server.Coverage
import Mathlib.Data.List.Sort

namespace AowisMap.Server

open Lib Catalogue

-- ============================================================== settings

/-- A group of the settings: its child keys with their values. -/
structure Group where
  name : Text
  entries : List (Text × List Text)
  nodup : (entries.map Prod.fst).Nodup

/-- The child groups of the settings. -/
structure SettingsGroups where
  groups : List Group
  nodup : (groups.map Group.name).Nodup

-- ================================================================= keys

/-- What `[0-9]|[12][0-9]|30` matches, as a number. -/
def tierDigits : Text → Option Nat
  | [d] => if d.isDigit then some (d.toNat - 48) else none
  | [d, e] =>
      if (d = '1' ∨ d = '2') ∧ e.isDigit then
        some (10 * (d.toNat - 48) + (e.toNat - 48))
      else if d = '3' ∧ e = '0' then some 30
      else none
  | _ => none

/-- A dollar sign also matches before a line feed at the end. -/
def withoutEnd (text : Text) : Text :=
  if text.getLast? = some '\n' then text.dropLast else text

/-- The zoom of a key `zoom_N`. -/
def tierZoom (key : Text) : Option Nat :=
  if "zoom_".toList.isPrefixOf key then tierDigits (withoutEnd (key.drop 5))
  else none

/-- The regions of a value: `joinedValue`, split at its commas, without
the empty parts, each of the others trimmed. -/
def regionNames (value : List Text) : List Text :=
  ((([','].intercalate value).splitOn ',').filter fun part =>
    !part.isEmpty).map QString.trimmed

-- ================================================================ tiers

/-- The loop over the keys of a section; the starts are kept in the order
of their zooms. -/
def readStarts (group : Text) (starts : List (Nat × List Text)) :
    List (Text × List Text) → Except Text (List (Nat × List Text))
  | [] => .ok starts
  | (key, value) :: entries =>
      match tierZoom key with
      | none =>
          .error ("Invalid coverage tier '".toList ++ group ++ ['/'] ++ key
            ++ "'; expected zoom_N".toList)
      | some zoom =>
          if regionNames value = [] ∨ zoom ∈ starts.map Prod.fst then
            .error ("Empty/duplicate tier '".toList ++ group ++ ['/'] ++ key
              ++ ['\''])
          else
            readStarts group
              (starts.orderedInsert (fun a b => a.1 ≤ b.1)
                (zoom, regionNames value)) entries

/-- Each start is a tier up to the one before the next start, the last one
up to 30. -/
def tiersOf : List (Nat × List Text) → List Tier
  | [] => []
  | [(zoom, regions)] => [⟨zoom, 30, regions⟩]
  | (zoom, regions) :: (next, regions') :: starts =>
      ⟨zoom, (next : Int) - 1, regions⟩ :: tiersOf ((next, regions') :: starts)

def coveragePrefix : Text := "coverage.".toList

/-- The profile that a section is about. -/
def Group.profileName (group : Group) : Text := group.name.drop 9

/-- One coverage section. -/
def readCoverage (group : Group) (coverage : DownloadCoverage) :
    Except Text DownloadCoverage :=
  match readStarts group.name [] group.entries with
  | .error message => .error message
  | .ok starts =>
      match starts with
      | (0, _) :: _ =>
          coverage.addProfile group.profileName ⟨tiersOf starts⟩
      | _ =>
          .error ("Coverage '".toList ++ group.profileName
            ++ "' must start with zoom_0".toList)

/-- The loop over the groups; only coverage sections are read. -/
def readCoverages : List Group → DownloadCoverage →
    Except Text DownloadCoverage
  | [], coverage => .ok coverage
  | group :: groups, coverage =>
      if coveragePrefix.isPrefixOf group.name then
        match readCoverage group coverage with
        | .ok after => readCoverages groups after
        | .error message => .error message
      else readCoverages groups coverage

end AowisMap.Server
