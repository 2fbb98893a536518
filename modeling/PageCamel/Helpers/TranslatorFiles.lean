import PageCamel.Helpers.Base64
import PageCamel.Helpers.Translator
import PageCamel.Lib.Fields

/-!
Export and import of the translations (`tr_export` and `tr_import` of `Helpers/Translator.pm`). The
exported JSON is cut into lines, each of which goes through Base64.
-/

namespace PageCamel.Helpers.Translator
open PageCamel.Frontend (encodeBase64)
open PageCamel.Helpers.Base64 (decodeBase64 decode_encodeBase64 encodeBase64_eq_nil_iff
  newline_not_mem_encodeBase64)
open PageCamel.Helpers.URI (Text)
open PageCamel.Lib (Octets octets)

/-! ### The tables -/

/-- The languages, the keys, and the translation for a language and a key. -/
@[ext] structure Tables where
  languages : List Text
  keys : List Text
  translations : AList fun _ : Text × Text => Text
  nodup_languages : languages.Nodup
  nodup_keys : keys.Nodup

namespace Tables

def empty : Tables where
  languages := []
  keys := []
  translations := ∅
  nodup_languages := List.nodup_nil
  nodup_keys := List.nodup_nil

structure Same (a b : Tables) : Prop where
  languages : a.languages.Perm b.languages
  keys : a.keys.Perm b.keys
  translations : ∀ lang key, a.translations.lookup (lang, key) = b.translations.lookup (lang, key)

/-- `SELECT originaltext, translation FROM translate_translations WHERE lang = ?` -/
def linesOf (tables : Tables) (lang : Text) : List (Text × Text) :=
  tables.translations.entries.filterMap fun line =>
    if line.1.1 = lang then some (line.1.2, line.2) else none

def reads (tables : Tables) : Reads where
  langs := tables.languages
  keys := tables.keys
  lines := tables.linesOf

/-- `DELETE FROM translate_languages` -/
def deleteLanguages (tables : Tables) : Tables :=
  { tables with languages := [], nodup_languages := List.nodup_nil }

/-- A language that is there already is an error. -/
def insertLanguage (tables : Tables) (lang : Text) : Option Tables :=
  if hNew : lang ∉ tables.languages then
    some { tables with
      languages := tables.languages ++ [lang]
      nodup_languages := List.nodup_append_comm.mp (tables.nodup_languages.cons hNew) }
  else none

def insertTranslatekey (tables : Tables) (key : Text) : Tables :=
  if hNew : key ∉ tables.keys then
    { tables with
      keys := tables.keys ++ [key]
      nodup_keys := List.nodup_append_comm.mp (tables.nodup_keys.cons hNew) }
  else tables

def mergeTranslation (tables : Tables) (orig lang trans : Text) : Tables :=
  { tables with translations := tables.translations.insert (lang, orig) trans }

end Tables

/-! ### Export -/

/-- What `Translations` is in the formats: a frozen hash as Base64, or the hash itself. -/
inductive Translations where
  | frozen (text : Octets)
  | hash (cache : Cache)

/-- The first two formats have the keys of the cache beside `ExportVersion`. -/
structure ExportData where
  exportVersion : Option Nat
  translations : Option Translations
  cache : Cache

/-- `json` is the canonical and pretty JSON in UTF-8. -/
structure Coding where
  json : ExportData → Octets
  decodeJson : Octets → Option ExportData
  dbthaw : Octets → Option ExportData
  thaw : Octets → Option Cache

/-- JSON gives the data back, whatever newlines are behind it. -/
def Coding.RoundTrips (coding : Coding) (data : ExportData) : Prop :=
  ∀ newlines, coding.decodeJson
    ((coding.json data).rdropWhile (· == 10) ++ List.replicate newlines 10) = some data

/-- The formats with a number of their own have nothing beside it. -/
def noCache : Cache where
  langs := []
  keys := []
  lang := ∅

def exportData (tables : Tables) : ExportData where
  exportVersion := some 4
  translations := some (.hash tables.reads.translate)
  cache := noCache

def trExport (coding : Coding) (tables : Tables) : Octets :=
  octets "#V4\n" ++ (Lib.Fields.fields 10 (coding.json (exportData tables))).flatMap
    fun part => encodeBase64 part ++ [10]

/-! ### Import -/

/-- The order in which a hash gives its keys. -/
structure HashOrder where
  order : List Text → List Text
  perm : ∀ keys, (order keys).Perm keys

def chomp (trans : Text) : Text := if trans.getLast? = some '\n' then trans.dropLast else trans

def importedText (impversion : Nat) (trans : Text) : Text :=
  chomp (if impversion = 2 then
      (decodeBase64 (UTF.octetsOf trans)).map fun b => Char.ofNat b.toNat
    else trans)

/-- The hash that is imported; Perl dies where it is none. -/
def importedCache (coding : Coding) (imp : ExportData) : Option Cache :=
  let impversion := imp.exportVersion.getD 1
  if impversion = 3 then
    match imp.translations with
    | some (.frozen text) => coding.thaw (decodeBase64 text)
    | _ => none
  else if impversion > 3 then
    match imp.translations with
    | some (.hash cache) => some cache
    | some (.frozen _) => none
    | none => some noCache
  else some imp.cache

/-- The translations of a language, with the language. -/
def importLang (order : HashOrder) (impversion : Nat) (cache : Cache) (tables : Tables)
    (lang : Text) : Tables :=
  let trans := (cache.lang.lookup lang).getD ∅
  (order.order trans.keys).foldl (fun tables orig =>
    tables.mergeTranslation orig lang (importedText impversion ((trans.lookup orig).getD []))) tables

def importCache (order : HashOrder) (impversion : Nat) (cache : Cache) (tables : Tables) :
    Option Tables := do
  let tables ← cache.langs.foldlM Tables.insertLanguage tables.deleteLanguages
  let tables := cache.keys.foldl Tables.insertTranslatekey tables
  some (cache.langs.foldl (importLang order impversion cache) tables)

def importData (coding : Coding) (order : HashOrder) (imp : ExportData) (tables : Tables) :
    Option Tables :=
  (importedCache coding imp).bind fun cache =>
    importCache order (imp.exportVersion.getD 1) cache tables

/-- The lines without the first one, decoded and put together again. -/
def joinedParts (impraw : Octets) : Octets :=
  (Lib.Fields.fields 10 impraw).tail.flatMap fun line => decodeBase64 line ++ [10]

/-- Text that is in no known format is not imported. -/
def trImport (coding : Coding) (order : HashOrder) (impraw : Octets) (tables : Tables) :
    Option Tables :=
  if (octets "---").isPrefixOf impraw then
    (coding.dbthaw impraw).bind fun imp => importData coding order imp tables
  else if (octets "#V").isPrefixOf impraw then
    (coding.decodeJson (joinedParts impraw)).bind fun imp => importData coding order imp tables
  else some tables

/-! ### The file -/

section File
variable {coding : Coding} {order : HashOrder} {tables : Tables}

theorem rdropWhile_encoded {parts : List Octets}
    (hLast : parts.rdropWhile List.isEmpty = parts) :
    (octets "#V4" :: parts.map encodeBase64).rdropWhile List.isEmpty =
      octets "#V4" :: parts.map encodeBase64 := by
  rcases List.eq_nil_or_concat parts with rfl | ⟨front, part, rfl⟩
  · rfl
  · rw [List.concat_eq_append] at hLast ⊢
    have hPart : part ≠ [] := by
      have hGetLast := List.rdropWhile_eq_self_iff.mp hLast (by simp)
      simpa using hGetLast
    rw [List.map_append, List.map_singleton, ← List.cons_append, List.rdropWhile_concat_neg]
    simpa [encodeBase64_eq_nil_iff] using hPart

theorem fields_trExport (coding : Coding) (tables : Tables) :
    Lib.Fields.fields 10 (trExport coding tables) =
      octets "#V4" ::
        (Lib.Fields.fields 10 (coding.json (exportData tables))).map encodeBase64 := by
  have hLines : trExport coding tables =
      (octets "#V4" ::
        (Lib.Fields.fields 10 (coding.json (exportData tables))).map encodeBase64).flatMap
          (· ++ [10]) := by
    rw [List.flatMap_cons, List.flatMap_map]
    rfl
  rw [hLines, Lib.Fields.fields_flatMap]
  · rw [List.forall_mem_cons, List.forall_mem_map]
    exact ⟨by decide, fun part _ => newline_not_mem_encodeBase64 part⟩
  · exact rdropWhile_encoded (Lib.Fields.rdropWhile_fields _)

theorem decodeJson_trExport (hJson : coding.RoundTrips (exportData tables)) :
    coding.decodeJson (joinedParts (trExport coding tables)) = some (exportData tables) := by
  obtain ⟨newlines, hRest⟩ := Lib.Fields.exists_flatMap_fields 10 (coding.json (exportData tables))
  rw [joinedParts, fields_trExport, List.tail_cons, List.flatMap_map]
  simp only [decode_encodeBase64]
  rw [hRest, hJson]

theorem trImport_trExport (hJson : coding.RoundTrips (exportData tables)) (start : Tables) :
    trImport coding order (trExport coding tables) start =
      importCache order 4 tables.reads.translate start := by
  rw [trImport, decodeJson_trExport hJson]
  rfl

end File

/-! ### What is loaded -/

section Inserts
variable {κ α : Type} [DecidableEq κ] {writes : List (κ × α)} {k : κ}

theorem lookup_inserts_of_not_mem (hOther : k ∉ writes.map Prod.fst)
    (start : AList fun _ : κ => α) :
    (writes.foldl (fun hash write => hash.insert write.1 write.2) start).lookup k =
      start.lookup k := by
  induction writes generalizing start with
  | nil => rfl
  | cons write writes ih =>
    rw [List.map_cons, List.mem_cons, not_or] at hOther
    rw [List.foldl_cons, ih hOther.2, AList.lookup_insert_ne hOther.1]

/-- Where the writes to a key agree, their order does not matter. -/
theorem lookup_inserts (value : κ → α) (hValue : ∀ write ∈ writes, write.2 = value write.1)
    (hMem : k ∈ writes.map Prod.fst) (start : AList fun _ : κ => α) :
    (writes.foldl (fun hash write => hash.insert write.1 write.2) start).lookup k =
      some (value k) := by
  induction writes generalizing start with
  | nil => cases hMem
  | cons write writes ih =>
    rw [List.forall_mem_cons] at hValue
    rw [List.foldl_cons]
    by_cases hLater : k ∈ writes.map Prod.fst
    · exact ih hValue.2 hLater _
    · have hHere : k = write.1 := (List.mem_cons.mp hMem).resolve_right hLater
      rw [lookup_inserts_of_not_mem hLater, hHere, AList.lookup_insert, hValue.1]

end Inserts

section Loaded
variable {tables : Tables} {lang key text : Text}

theorem mem_linesOf :
    (key, text) ∈ tables.linesOf lang ↔ tables.translations.lookup (lang, key) = some text := by
  rw [← Option.mem_def, AList.mem_lookup_iff, Tables.linesOf, List.mem_filterMap]
  constructor
  · rintro ⟨⟨⟨lang', key'⟩, text'⟩, hMem, hLine⟩
    dsimp only at hLine
    split at hLine
    · next hLang =>
      cases hLine
      cases hLang
      exact hMem
    · cases hLine
  · intro hMem
    exact ⟨_, hMem, if_pos rfl⟩

theorem lookup_loadLang :
    (loadLang (tables.linesOf lang)).lookup key = tables.translations.lookup (lang, key) := by
  have hValue : ∀ line ∈ tables.linesOf lang,
      line.2 = (tables.translations.lookup (lang, line.1)).getD [] := by
    intro line hLine
    rw [mem_linesOf.mp hLine]
    rfl
  rw [loadLang]
  cases hText : tables.translations.lookup (lang, key) with
  | some text =>
    have hMem : key ∈ (tables.linesOf lang).map Prod.fst :=
      List.mem_map_of_mem (f := Prod.fst) (mem_linesOf.mpr hText)
    rw [lookup_inserts (fun key =>
      (tables.translations.lookup (lang, key)).getD []) hValue hMem, hText]
    rfl
  | none =>
    rw [lookup_inserts_of_not_mem, AList.lookup_empty]
    intro hMem
    obtain ⟨line, hLine, rfl⟩ := List.mem_map.mp hMem
    rw [mem_linesOf.mp hLine] at hText
    cases hText

theorem lookup_translate :
    tables.reads.translate.lang.lookup lang =
      if lang ∈ tables.languages then some (loadLang (tables.linesOf lang)) else none := by
  have hWrites : tables.reads.translate.lang =
      (tables.languages.map fun lang => (lang, loadLang (tables.linesOf lang))).foldl
        (fun hash write => hash.insert write.1 write.2) ∅ := by
    rw [List.foldl_map]
    rfl
  have hKeys : (tables.languages.map fun lang =>
      (lang, loadLang (tables.linesOf lang))).map Prod.fst = tables.languages := by
    rw [List.map_map]
    exact List.map_id _
  rw [hWrites]
  split
  · next hLang =>
    rw [← hKeys] at hLang
    refine lookup_inserts (fun lang => loadLang (tables.linesOf lang)) ?_ hLang _
    rw [List.forall_mem_map]
    exact fun _ _ => rfl
  · next hLang =>
    rw [← hKeys] at hLang
    rw [lookup_inserts_of_not_mem hLang, AList.lookup_empty]

theorem text_translate :
    tables.reads.translate.text lang key =
      if lang ∈ tables.languages then tables.translations.lookup (lang, key) else none := by
  rw [Cache.text, lookup_translate]
  split
  · exact lookup_loadLang
  · rfl

end Loaded

/-! ### What is imported -/

section Imported
variable {order : HashOrder} {impversion : Nat} {cache : Cache} {tables : Tables}
  {lang orig : Text}

def langWrites (order : HashOrder) (impversion : Nat) (cache : Cache) (lang : Text) :
    List ((Text × Text) × Text) :=
  let trans := (cache.lang.lookup lang).getD ∅
  (order.order trans.keys).map fun orig =>
    ((lang, orig), importedText impversion ((trans.lookup orig).getD []))

theorem lookup_getD : ((cache.lang.lookup lang).getD ∅).lookup orig = cache.text lang orig := by
  rw [Cache.text]
  cases cache.lang.lookup lang with
  | none => exact AList.lookup_empty orig
  | some trans => rfl

theorem mem_langWrites {write : (Text × Text) × Text}
    (hWrite : write ∈ langWrites order impversion cache lang) :
    write.2 = importedText impversion ((cache.text write.1.1 write.1.2).getD []) := by
  obtain ⟨orig, -, rfl⟩ := List.mem_map.mp hWrite
  rw [lookup_getD]

theorem mem_keys_langWrites {lang' : Text} :
    (lang', orig) ∈ (langWrites order impversion cache lang).map Prod.fst ↔
      lang' = lang ∧ (cache.text lang orig).isSome := by
  rw [langWrites, List.map_map, ← lookup_getD, AList.lookup_isSome, AList.mem_keys,
    ← (order.perm _).mem_iff]
  simp [eq_comm, and_comm]

theorem foldl_inserted (writes : List ((Text × Text) × Text)) (tables : Tables) :
    writes.foldl (fun tables write => tables.mergeTranslation write.1.2 write.1.1 write.2) tables =
      { tables with
        translations := writes.foldl (fun hash write => hash.insert write.1 write.2)
          tables.translations } := by
  induction writes generalizing tables with
  | nil => rfl
  | cons write writes ih => exact ih _

theorem foldl_importLang (langs : List Text) (tables : Tables) :
    langs.foldl (importLang order impversion cache) tables =
      { tables with
        translations := (langs.flatMap (langWrites order impversion cache)).foldl
          (fun hash write => hash.insert write.1 write.2) tables.translations } := by
  rw [← foldl_inserted, List.foldl_flatMap]
  refine congrArg (fun f => langs.foldl f tables) ?_
  funext tables lang
  rw [langWrites, List.foldl_map]
  rfl

theorem foldl_insertTranslatekey {done keys : List Text} (hNodup : (done ++ keys).Nodup)
    (hKeys : tables.keys = done) :
    let after := keys.foldl Tables.insertTranslatekey tables
    after.keys = done ++ keys ∧ after.languages = tables.languages ∧
      after.translations = tables.translations := by
  induction keys generalizing done tables with
  | nil => exact ⟨by rw [List.append_nil]; exact hKeys, rfl, rfl⟩
  | cons key keys ih =>
    have hNew : key ∉ tables.keys := by
      rw [hKeys]
      exact fun hMem => List.disjoint_of_nodup_append hNodup hMem List.mem_cons_self
    rw [← List.singleton_append, ← List.append_assoc] at hNodup
    have hAdded : (tables.insertTranslatekey key).keys = done ++ [key] := by
      rw [Tables.insertTranslatekey, dif_pos hNew, ← hKeys]
    have hRest := ih hNodup hAdded
    rw [Tables.insertTranslatekey, dif_pos hNew] at hRest
    rw [List.foldl_cons, Tables.insertTranslatekey, dif_pos hNew]
    rwa [List.append_assoc, List.singleton_append] at hRest

theorem foldlM_insertLanguage {done langs : List Text} (hNodup : (done ++ langs).Nodup)
    (hLangs : tables.languages = done) :
    ∃ after, langs.foldlM Tables.insertLanguage tables = some after ∧
      after.languages = done ++ langs ∧ after.keys = tables.keys ∧
      after.translations = tables.translations := by
  induction langs generalizing done tables with
  | nil => exact ⟨tables, rfl, by rw [List.append_nil]; exact hLangs, rfl, rfl⟩
  | cons lang langs ih =>
    have hNew : lang ∉ tables.languages := by
      rw [hLangs]
      exact fun hMem => List.disjoint_of_nodup_append hNodup hMem List.mem_cons_self
    rw [← List.singleton_append, ← List.append_assoc] at hNodup
    obtain ⟨next, hNext, hLanguages, hSame⟩ : ∃ next, tables.insertLanguage lang = some next ∧
        next.languages = done ++ [lang] ∧ next.keys = tables.keys ∧
        next.translations = tables.translations := by
      rw [Tables.insertLanguage, dif_pos hNew]
      exact ⟨_, rfl, congrArg (· ++ [lang]) hLangs, rfl, rfl⟩
    obtain ⟨after, hAfter, hAll, hKeys, hTranslations⟩ := ih hNodup hLanguages
    rw [List.append_assoc, List.singleton_append] at hAll
    exact ⟨after, by rw [List.foldlM_cons, hNext]; exact hAfter, hAll, hKeys.trans hSame.1,
      hTranslations.trans hSame.2⟩

theorem mem_keys_import {langs : List Text} :
    (lang, orig) ∈ (langs.flatMap (langWrites order impversion cache)).map Prod.fst ↔
      lang ∈ langs ∧ (cache.text lang orig).isSome := by
  rw [List.map_flatMap, List.mem_flatMap]
  constructor
  · rintro ⟨lang', hLang, hMem⟩
    obtain ⟨rfl, hSome⟩ := mem_keys_langWrites.mp hMem
    exact ⟨hLang, hSome⟩
  · rintro ⟨hLang, hSome⟩
    exact ⟨lang, hLang, mem_keys_langWrites.mpr ⟨rfl, hSome⟩⟩

variable (cache) in
theorem lookup_import {start : Tables} (hNone : start.translations = ∅) :
    (cache.langs.foldl (importLang order impversion cache) start).translations.lookup (lang, orig) =
      if lang ∈ cache.langs then (cache.text lang orig).map (importedText impversion) else none := by
  rw [foldl_importLang, hNone]
  by_cases hBoth : lang ∈ cache.langs ∧ (cache.text lang orig).isSome
  · obtain ⟨text, hText⟩ := Option.isSome_iff_exists.mp hBoth.2
    rw [lookup_inserts (fun k => importedText impversion
      ((cache.text k.1 k.2).getD [])) ?_ (mem_keys_import.mpr hBoth), if_pos hBoth.1, hText]
    · rfl
    · intro write hWrite
      obtain ⟨lang', -, hMem⟩ := List.mem_flatMap.mp hWrite
      exact mem_langWrites hMem
  · rw [lookup_inserts_of_not_mem (mt mem_keys_import.mp hBoth), AList.lookup_empty]
    split
    · next hLang =>
      rw [Option.not_isSome_iff_eq_none.mp fun hSome => hBoth ⟨hLang, hSome⟩]
      rfl
    · rfl

/-- The tables after an import of what has been exported from others. -/
theorem importCache_translate (order : HashOrder) (tables : Tables) :
    ∃ after, importCache order 4 tables.reads.translate Tables.empty = some after ∧
      after.languages = tables.languages ∧ after.keys = tables.keys ∧
      ∀ lang orig, after.translations.lookup (lang, orig) =
        if lang ∈ tables.languages then (tables.translations.lookup (lang, orig)).map chomp
        else none := by
  have hNoLanguages : Tables.empty.deleteLanguages.languages = [] := rfl
  have hNodupLanguages : ([] ++ tables.languages).Nodup := tables.nodup_languages
  have hNodupKeys : ([] ++ tables.keys).Nodup := tables.nodup_keys
  obtain ⟨next, hNext, hLanguages, hNoKeys, hNone⟩ :=
    foldlM_insertLanguage hNodupLanguages hNoLanguages
  obtain ⟨hKeys, hSame, hStill⟩ := foldl_insertTranslatekey hNodupKeys hNoKeys
  refine ⟨tables.languages.foldl (importLang order 4 tables.reads.translate)
    (tables.keys.foldl Tables.insertTranslatekey next), ?_, ?_, ?_, fun lang orig => ?_⟩
  · show (tables.languages.foldlM Tables.insertLanguage Tables.empty.deleteLanguages).bind _ = _
    rw [hNext]
    rfl
  · rw [foldl_importLang]
    exact hSame.trans hLanguages
  · rw [foldl_importLang]
    exact hKeys
  · refine (lookup_import tables.reads.translate (hStill.trans hNone)).trans ?_
    show (if lang ∈ tables.languages then _ else none) = _
    rw [text_translate]
    by_cases hLang : lang ∈ tables.languages
    · rw [if_pos hLang, if_pos hLang, if_pos hLang]
      rfl
    · rw [if_neg hLang, if_neg hLang]

theorem chomp_eq_self_iff {trans : Text} : chomp trans = trans ↔ trans.getLast? ≠ some '\n' := by
  rw [chomp]
  split
  · next hNewline =>
    have hSome : trans ≠ [] := fun hNil => by rw [hNil] at hNewline; cases hNewline
    refine ⟨fun hSame => ?_, fun hOther => absurd hNewline hOther⟩
    have hLength := congrArg List.length hSame
    rw [List.length_dropLast] at hLength
    have hPos := List.length_pos_iff.mpr hSome
    omega
  · next hOther => exact ⟨fun _ => hOther, fun _ => rfl⟩

/-- What an import of an export restores. -/
def Restored (coding : Coding) (order : HashOrder) (tables : Tables) : Prop :=
  ∃ after, trImport coding order (trExport coding tables) Tables.empty = some after ∧
    tables.Same after

theorem restored_iff_lookup {coding : Coding} (order : HashOrder) (tables : Tables)
    (hJson : coding.RoundTrips (exportData tables)) :
    Restored coding order tables ↔ ∀ lang orig, tables.translations.lookup (lang, orig) =
      if lang ∈ tables.languages then (tables.translations.lookup (lang, orig)).map chomp
      else none := by
  obtain ⟨after, hAfter, hLanguages, hKeys, hText⟩ := importCache_translate order tables
  rw [Restored, trImport_trExport hJson]
  constructor
  · rintro ⟨restored, hRestored, hSame⟩ lang orig
    cases hRestored.symm.trans hAfter
    rw [← hText, ← hSame.translations]
  · intro hEvery
    refine ⟨after, hAfter, hLanguages ▸ List.Perm.refl _, hKeys ▸ List.Perm.refl _, ?_⟩
    intro lang orig
    rw [hText, ← hEvery]

/-- Importing an export into empty tables restores them exactly if every translation is for one of
the languages and has no newline at its end. -/
theorem restored_iff {coding : Coding} (order : HashOrder) (tables : Tables)
    (hJson : coding.RoundTrips (exportData tables)) :
    Restored coding order tables ↔
      ∀ lang orig trans, tables.translations.lookup (lang, orig) = some trans →
        lang ∈ tables.languages ∧ trans.getLast? ≠ some '\n' := by
  rw [restored_iff_lookup order tables hJson]
  constructor
  · intro hEvery lang orig trans hTrans
    have hStill := hEvery lang orig
    rw [hTrans] at hStill
    by_cases hLang : lang ∈ tables.languages
    · rw [if_pos hLang] at hStill
      exact ⟨hLang, chomp_eq_self_iff.mp (Option.some.inj hStill).symm⟩
    · rw [if_neg hLang] at hStill
      cases hStill
  · intro hEvery lang orig
    cases hTrans : tables.translations.lookup (lang, orig) with
    | none => exact (ite_self none).symm
    | some trans =>
      obtain ⟨hLang, hOther⟩ := hEvery lang orig trans hTrans
      rw [if_pos hLang, Option.map_some, chomp_eq_self_iff.mpr hOther]

end Imported

/-! ### One translation -/

section One
variable (trans : Text) (literal : String)

def oneTranslation : Tables where
  languages := ["eng".toList]
  keys := ["a".toList]
  translations := AList.singleton ("eng".toList, "a".toList) trans
  nodup_languages := List.nodup_singleton _
  nodup_keys := List.nodup_singleton _

def oneJson : Octets :=
  octets "\x7b\n   \"ExportVersion\" : 4,\n   \"Translations\" : \x7b\n" ++
    octets "      \"keys\" : [\n         \"a\"\n      ],\n" ++
    octets "      \"lang\" : \x7b\n         \"eng\" : \x7b\n            \"a\" : " ++
    octets literal ++ octets "\n         \x7d\n      \x7d,\n" ++
    octets "      \"langs\" : [\n         \"eng\"\n      ]\n   \x7d\n\x7d\n"

/-- JSON::XS on the export of one translation, whose text it writes as `literal`. -/
def oneCoding : Coding where
  json _ := oneJson literal
  decodeJson text :=
    if ((oneJson literal).rdropWhile (· == 10)).isPrefixOf text then
      some (exportData (oneTranslation trans))
    else none
  dbthaw _ := none
  thaw _ := none

theorem roundTrips_oneCoding :
    (oneCoding trans literal).RoundTrips (exportData (oneTranslation trans)) := fun _ =>
  if_pos (List.isPrefixOf_iff_prefix.mpr (List.prefix_append _ _))

end One

theorem restored_one :
    Restored (oneCoding "Guten Tag\nHerr".toList "\"Guten Tag\\nHerr\"") ⟨id, List.Perm.refl⟩
      (oneTranslation "Guten Tag\nHerr".toList) := by
  refine (restored_iff _ _ (roundTrips_oneCoding _ _)).mpr ?_
  intro lang orig trans hTrans
  obtain ⟨rfl, -, rfl⟩ : lang = "eng".toList ∧ orig = "a".toList ∧
      trans = "Guten Tag\nHerr".toList := by
    have hEntry : (⟨(lang, orig), trans⟩ : Σ _ : Text × Text, Text) ∈
        [⟨("eng".toList, "a".toList), "Guten Tag\nHerr".toList⟩] :=
      AList.mem_lookup_iff.mp hTrans
    simpa [and_assoc] using hEntry
  decide

/-- A translation that ends in a newline loses it. -/
theorem not_restored_newline :
    ¬ Restored (oneCoding "Guten Tag\n".toList "\"Guten Tag\\n\"") ⟨id, List.Perm.refl⟩
      (oneTranslation "Guten Tag\n".toList) := by
  rw [restored_iff_lookup _ _ (roundTrips_oneCoding _ _)]
  intro hEvery
  have hOne := hEvery "eng".toList "a".toList
  revert hOne
  decide

end PageCamel.Helpers.Translator
