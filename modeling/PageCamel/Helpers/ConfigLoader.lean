import PageCamel.Lib.Cuts
import PageCamel.Lib.Fields
import PageCamel.Lib.Octets
import PageCamel.Lib.Substitution
import Mathlib.Data.List.MinMax
import Mathlib.Data.List.Perm.Basic

/-!
The configuration files (`Helpers/ConfigLoader.pm`): the environment variables `PC_...` are put into
the text of a file one after the other, in the order in which the environment is enumerated, before
the text goes to the XML parser.
-/

namespace PageCamel.Helpers.ConfigLoader
open PageCamel.Lib
open PageCamel.Lib.Substitution (Names Marked)

/-! ### The environment -/

/-- A character that stands for itself in a pattern. -/
def isWord (c : UInt8) : Bool :=
  c == 95 || (48 ≤ c && c ≤ 57) || (65 ≤ c && c ≤ 90) || (97 ≤ c && c ≤ 122)

/-- Perl's patterns: where a pattern cuts a text, unless it is malformed. -/
structure Regex where
  between : Octets → Octets → Option (List Octets)
  literal : ∀ pattern text, pattern.all isWord = true →
    between pattern text = some (Cuts.cut (Cuts.literal pattern) 0 text)

/-- `%ENV` -/
structure Env where
  entries : List (Octets × Octets)
  nodup : (entries.map Prod.fst).Nodup

namespace Env

def names (env : Env) : List Octets := env.entries.map Prod.fst

def get (env : Env) (name : Octets) : Option Octets := env.entries.lookup name

/-- `$varname =~ /^PC\_/` -/
def isPc (varname : Octets) : Bool := (octets "PC_").isPrefixOf varname

def pcNames (env : Env) : List Octets := env.names.filter isPc

theorem nodup_pcNames (env : Env) : env.pcNames.Nodup := env.nodup.filter _

end Env

/-- What `s/$varname/$newval/g` works with. -/
def envVars (regex : Regex) (env : Env) : Names Octets UInt8 where
  spell varname := varname
  value varname := (env.get varname).getD []
  between := regex.between

/-! ### The names that stand in a text -/

/-- The longest name that the text begins with. -/
def longest (names : List Octets) (text : Octets) : Option Octets :=
  (names.filter (·.isPrefixOf text)).argmax List.length

/-- The occurrences of names, from the left, none inside of another; the first characters are
behind an occurrence already. -/
def occurrences (names : List Octets) : Nat → Octets → Marked Octets UInt8
  | _, [] => []
  | skip + 1, _ :: text => occurrences names skip text
  | 0, a :: text =>
      match longest names (a :: text) with
      | some varname => .inl varname :: occurrences names (varname.length - 1) text
      | none => .inr a :: occurrences names 0 text

/-- The text with the value of its variable at each occurrence. -/
def replaced (regex : Regex) (env : Env) (filedata : Octets) : Octets :=
  (envVars regex env).shown env.pcNames (occurrences env.pcNames 0 filedata)

/-! ### LoadConfig -/

inductive ConfigError where
  | croak (text : Octets)
  /-- What Perl says about a malformed pattern is its own. -/
  | pattern
  /-- Files that include each other have no end. -/
  | endless
  deriving DecidableEq, Repr

/-- `$path .= '/'` -/
def withSlash (path : Octets) : Octets :=
  if path ≠ [] ∧ path.getLast? ≠ some 47 then path ++ octets "/" else path

def configPaths (env : Env) : List Octets :=
  match env.get (octets "PC_CONFIG_PATHS") with
  | some paths => Fields.fields 58 paths
  | none => [[], octets "configs/"]

/-- What stands in the file system under a name that is a plain file: a text, or what `open` says
about it. -/
abbrev Files := Octets → Option (Except Octets Octets)

/-- The first of the paths that has the file. -/
def findConfig (env : Env) (files : Files) (fname : Octets) :
    Option (Octets × Except Octets Octets) :=
  (configPaths env).findSome? fun path =>
    (files (withSlash path ++ fname)).map (withSlash path ++ fname, ·)

def notFound (fname : Octets) : Octets :=
  octets "Can't load config file " ++ fname ++ octets ": Not found or empty!"

/-- What goes on to the XML parser, with the name of the file, when the variables are put in
this way. -/
def handedOver (env : Env) (files : Files) (putIn : Octets → Option Octets) (fname : Octets) :
    Except ConfigError (Octets × Octets) :=
  match findConfig env files fname with
  | none => .error (.croak (notFound fname))
  | some (_, .error errno) => .error (.croak errno)
  | some (fullfname, .ok filedata) =>
      match putIn filedata with
      | none => .error .pattern
      | some [] => .error (.croak (notFound fname))
      | some (a :: text) => .ok (fullfname, a :: text)

/-- `order` is the order of `keys %ENV`. -/
def configText (regex : Regex) (env : Env) (files : Files) (order : List Octets)
    (fname : Octets) : Except ConfigError (Octets × Octets) :=
  handedOver env files ((envVars regex env).substituteAll (order.filter Env.isPc)) fname

/-! ### Including other files -/

structure Module (μ : Type) where
  modname : Option Octets
  file : Octets
  settings : μ

/-- The keys of a configuration, `module` apart. -/
structure Config (σ μ : Type) where
  keys : Octets → Option σ
  modules : Option (List (Module μ))

/-- `XMLin($filedata, %options)` -/
abbrev XMLin (σ μ : Type) := Octets → Except ConfigError (Config σ μ)

section Include
variable {σ μ : Type} (regex : Regex) (env : Env) (files : Files) (xmlin : XMLin σ μ)
  (order : List Octets)

/-- One of `@modules`, where `load` reads an included file. -/
def addModule (load : Octets → Except ConfigError (Config σ μ)) (config : Config σ μ)
    (newmodule : Module μ) : Except ConfigError (Config σ μ) := do
  if newmodule.modname = some (octets "include") then
    let extraconf ← load newmodule.file
    .ok { keys := fun key => (extraconf.keys key).or (config.keys key)
          modules := some (config.modules.getD [] ++ extraconf.modules.getD []) }
  else
    .ok { config with modules := some (config.modules.getD [] ++ [newmodule]) }

def loadConfig : Nat → Octets → Except ConfigError (Config σ μ)
  | 0, _ => .error .endless
  | calls + 1, fname => do
      let (_, filedata) ← configText regex env files order fname
      let config ← xmlin filedata
      match config.modules with
      | none => .ok config
      | some modules =>
          modules.foldlM (addModule (loadConfig calls)) { config with modules := some [] }

end Include

/-! ### What is handed over -/

section Text
variable {regex : Regex} {env : Env} {files : Files} {order : List Octets} {fname : Octets}

theorem longest_spec {names : List Octets} {text varname : Octets}
    (hLongest : longest names text = some varname) : varname ∈ names ∧ varname <+: text := by
  have hMem := List.argmax_mem hLongest
  rw [List.mem_filter] at hMem
  exact ⟨hMem.1, List.isPrefixOf_iff_prefix.mp hMem.2⟩

/-- The occurrences are read off the text. -/
theorem shown_occurrences {names : List Octets} (hNames : [] ∉ names) (skip : Nat)
    (text : Octets) :
    (envVars regex env).shown [] (occurrences names skip text) = text.drop skip := by
  induction text generalizing skip with
  | nil => rw [List.drop_nil]; cases skip <;> rfl
  | cons a text ih =>
    cases skip with
    | succ skip => exact ih skip
    | zero =>
      rw [occurrences]
      cases hLongest : longest names (a :: text) with
      | none =>
        show a :: (envVars regex env).shown [] (occurrences names 0 text) = _
        rw [ih]
        rfl
      | some varname =>
        obtain ⟨hMem, rest, hText⟩ := longest_spec hLongest
        show varname ++ (envVars regex env).shown [] _ = _
        rw [ih]
        cases varname with
        | nil => exact absurd hMem hNames
        | cons b varname =>
          obtain ⟨rfl, rfl⟩ := List.cons.inj hText
          have hDrop : (varname.append rest).drop varname.length = rest := List.drop_left
          rw [List.length_cons, Nat.add_sub_cancel, hDrop]
          rfl

theorem nil_not_mem_pcNames : [] ∉ env.pcNames := by
  intro hMem
  have hPc := List.of_mem_filter hMem
  revert hPc
  decide

theorem shown_filedata (filedata : Octets) :
    (envVars regex env).shown [] (occurrences env.pcNames 0 filedata) = filedata :=
  shown_occurrences nil_not_mem_pcNames 0 filedata

/-- Whichever of the other variables have been put in, the name of a variable is found only where
it stands in the file. -/
def Clear (regex : Regex) (env : Env) (filedata : Octets) : Prop :=
  (envVars regex env).Clear env.pcNames (occurrences env.pcNames 0 filedata)

/-- In this order some value is put in elsewhere than at an occurrence of its variable, or not at
all of them. -/
def Strays (regex : Regex) (env : Env) (filedata : Octets) (order : List Octets) : Prop :=
  (envVars regex env).Strays (occurrences env.pcNames 0 filedata) (order.filter Env.isPc)

theorem substituteAll_filedata {filedata : Octets} (hClear : Clear regex env filedata)
    (hOrder : order.Perm env.names) :
    (envVars regex env).substituteAll (order.filter Env.isPc) filedata =
      some (replaced regex env filedata) := by
  have hPerm : (order.filter Env.isPc).Perm env.pcNames := hOrder.filter _
  have hAll := Substitution.substituteAll_of_clear hClear
    (hPerm.nodup_iff.mpr env.nodup_pcNames) hPerm.subset
  rw [shown_filedata] at hAll
  rw [hAll, replaced]
  exact congrArg some (Substitution.shown_congr fun _ => hPerm.mem_iff)

/-- The orders of the environment are the orders of its variables, other variables apart. -/
theorem clear_iff_not_strays (filedata : Octets) :
    Clear regex env filedata ↔
      ∀ order, order.Perm env.names → ¬ Strays regex env filedata order := by
  rw [Clear, Substitution.clear_iff env.nodup_pcNames]
  constructor
  · intro hNever order hOrder
    exact hNever _ (hOrder.filter _)
  · intro hNever order hOrder
    have hPc : order.filter Env.isPc = order :=
      List.filter_eq_self.mpr fun name hMem => List.of_mem_filter (hOrder.subset hMem)
    have hElse : (env.names.filter fun name => !Env.isPc name).filter Env.isPc = [] := by
      simp
    have hPerm := (hOrder.append_right _).trans (List.filter_append_perm Env.isPc env.names)
    have hStrays := hNever _ hPerm
    rwa [Strays, List.filter_append, hPc, hElse, List.append_nil] at hStrays

theorem configText_of_clear
    (hClear : ∀ fullfname filedata,
      findConfig env files fname = some (fullfname, .ok filedata) → Clear regex env filedata)
    (hOrder : order.Perm env.names) :
    configText regex env files order fname =
      handedOver env files (some ∘ replaced regex env) fname := by
  rw [configText, handedOver, handedOver]
  cases hFound : findConfig env files fname with
  | none => rfl
  | some found =>
    obtain ⟨fullfname, errno | filedata⟩ := found
    · rfl
    · have hText := substituteAll_filedata (hClear fullfname filedata hFound) hOrder
      simp only [hText, Function.comp_apply]

/-- `LoadConfig` puts each value in at the occurrences of its variable, whatever the order of the
environment, exactly if no name is found elsewhere. -/
theorem configText_any_order (regex : Regex) (env : Env) (files : Files) (fname : Octets) :
    (∀ order, order.Perm env.names →
      configText regex env files order fname =
        handedOver env files (some ∘ replaced regex env) fname ∧
      ∀ fullfname filedata, findConfig env files fname = some (fullfname, .ok filedata) →
        ¬ Strays regex env filedata order) ↔
    ∀ fullfname filedata, findConfig env files fname = some (fullfname, .ok filedata) →
      Clear regex env filedata := by
  constructor
  · intro hEvery fullfname filedata hFound
    exact (clear_iff_not_strays filedata).mpr fun order hOrder =>
      (hEvery order hOrder).2 fullfname filedata hFound
  · intro hClear order hOrder
    exact ⟨configText_of_clear hClear hOrder, fun fullfname filedata hFound =>
      (clear_iff_not_strays filedata).mp (hClear fullfname filedata hFound) order hOrder⟩

/-- The name of one variable is a prefix of the name of another. -/
theorem configText_two_orders :
    let regex : Regex :=
      { between := fun pattern text => some (Cuts.cut (Cuts.literal pattern) 0 text)
        literal := fun _ _ _ => rfl }
    let env : Env :=
      { entries := [(octets "PC_A", octets "1"), (octets "PC_AB", octets "2")]
        nodup := by decide }
    let files : Files := fun name =>
      if name = octets "configs/web.xml" then some (.ok (octets "<port>PC_AB</port>")) else none
    configText regex env files [octets "PC_A", octets "PC_AB"] (octets "web.xml") =
        .ok (octets "configs/web.xml", octets "<port>1B</port>") ∧
      configText regex env files [octets "PC_AB", octets "PC_A"] (octets "web.xml") =
        .ok (octets "configs/web.xml", octets "<port>2</port>") := by
  decide +kernel

/-- What included files add does not depend on the order either. -/
theorem loadConfig_any_order {σ μ : Type} (xmlin : XMLin σ μ)
    (hClear : ∀ name filedata, files name = some (.ok filedata) → Clear regex env filedata)
    (hOrder : order.Perm env.names) (calls : Nat) :
    loadConfig regex env files xmlin order calls =
      loadConfig regex env files xmlin env.names calls := by
  have hText : configText regex env files order = configText regex env files env.names := by
    funext fname
    have hFound : ∀ fullfname filedata,
        findConfig env files fname = some (fullfname, .ok filedata) → Clear regex env filedata := by
      intro fullfname filedata hFind
      obtain ⟨path, -, hPath⟩ := List.exists_of_findSome?_eq_some hFind
      obtain ⟨found, hFile, hPair⟩ := Option.map_eq_some_iff.mp hPath
      cases hPair
      exact hClear _ filedata hFile
    rw [configText_of_clear hFound hOrder, configText_of_clear hFound (List.Perm.refl _)]
  induction calls with
  | zero => rfl
  | succ calls ih =>
    funext fname
    rw [loadConfig, loadConfig, hText, ih]

end Text

end PageCamel.Helpers.ConfigLoader
