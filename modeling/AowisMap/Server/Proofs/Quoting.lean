/-
INI quoting undone by a reader that tells variants from texts.

What remains of a value without quotes and escapes (`Ini.unquote`) is a
single text unless it begins with a single at sign, behind which comes a
variant (`Ini.readAt`). A quoted text is never taken for one, whatever
characters it holds.
-/
import AowisMap.Server.Proofs.Catalogue

namespace AowisMap.Server.Catalogue

open Lib

/-- Reads the line of a key. -/
def readEntry (line : Text) : Option (Text × Ini.Reading) :=
  (Ini.splitAtEquals .plain [] line).map fun (key, raw) =>
    (Ini.unescapedKey 0 (Ini.trimmed key), Ini.readValue raw)

/-- **The quoting is undone**: the line of a quoted text stays one line,
reads as the key and the single text, and `readSingleString` returns
it. -/
theorem quoted_roundTrip {key : String} (h : IsKey key) (value : Text) :
    (∀ rest, Ini.scan .plain []
        (keyLine key (iniQuotedValue value) ++ '\n' :: rest)
      = keyLine key (iniQuotedValue value) :: Ini.scan .plain [] rest) ∧
    readEntry (keyLine key (iniQuotedValue value))
      = some (key.toList, .string value) ∧
    ∀ (settings : Ini.Settings) (group fallback : Text),
      settings.group = group ++ ['/'] →
      readSingleString
          (Ini.readLine settings (keyLine key (iniQuotedValue value)))
          group key fallback
        = .ok value := by
  have hrun : Ini.run .plain (keyLine key (iniQuotedValue value))
      = some .plain := by
    rw [keyLine, Ini.run_append]
    exact ⟨.plain, h.word.run, Ini.run_cons.2 ⟨.plain, rfl, run_quoted value⟩⟩
  refine ⟨fun rest => ?_, ?_, fun settings group fallback hgroup => ?_⟩
  · rw [Ini.scan_of_run hrun, Ini.scan_cut rfl]
    rfl
  · unfold readEntry
    rw [keyLine, h.word.splitAtEquals, List.nil_append, Option.map_some]
    simp only [readValue_quoted, h.unescapedKey]
  · have hentry : (Ini.readLine settings
        (keyLine key (iniQuotedValue value))).value (group ++ '/' :: key.toList)
        = some (.text value) := by
      rw [h.readLine, unescapedValue_quoted, hgroup]
      unfold Ini.Settings.value
      rw [List.append_assoc, List.singleton_append, List.lookup_cons_self]
    unfold readSingleString
    rw [hentry]

/-- A name that would otherwise be a list, a comment and a variant. -/
theorem quoted_roundTrip_variant :
    readEntry (keyLine "name" (iniQuotedValue
        "@Variant(a, b; \"c\" \\ = d)".toList))
      = some ("name".toList, .string "@Variant(a, b; \"c\" \\ = d)".toList) :=
  (quoted_roundTrip isKey_name _).2.1

end AowisMap.Server.Catalogue
