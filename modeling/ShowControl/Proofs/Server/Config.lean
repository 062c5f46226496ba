import ShowControl.Proofs.Address.Ip
import ShowControl.Proofs.Renderer.Acceptance
import ShowControl.Proofs.Text.Integer
import ShowControl.Proofs.Toml.Plain
import ShowControl.Proofs.Toml.Range
import ShowControl.Server.Config

/-!
# The effective configuration and the saved one

Each value of a configuration has one place that it comes from (`ServerConfig.Effective`), and what
is saved is what counts: the file that is written gives the same configuration again, and is written
from it again (`ServerConfig.load_kept`).

The file is a plain one (`ServerConfig.entries`), and its address is read back as every address is.
What is left is a matter of sizes. The waiting time may be a number that no file can hold, but where
it comes from a file, it is one that a file has held.
-/

namespace ShowControl

/-! ### Where values come from -/

namespace ServerConfig

open Toml

/-- What is known of a file: nothing if it is not there, else the document of its text. -/
inductive Holds : Option ByteArray → Document → Prop where
  | absent : Holds none {}
  | text {bytes : ByteArray} {text : String} {d : Document}
    (decodes : String.fromUTF8? bytes = some text) (parses : Document.parse? text = some d) :
    Holds (some bytes) d

/-- The value that counts: that of the option if it is given, else that of the file, else the
preset one. -/
inductive Settles {α : Type} (given? : Option α) (d : Document) (key : String)
    (Means : Value → α → Prop) (preset : α) : α → Prop where
  | option {a : α} (given : given? = some a) : Settles given? d key Means preset a
  | file {a : α} {value : Value} (silent : given? = none)
    (here : d.find? key = some (.value value)) (means : Means value a) :
    Settles given? d key Means preset a
  | preset (silent : given? = none) (absent : d.find? key = none) :
    Settles given? d key Means preset preset

/-- The value is the text of an address. -/
def MeansAddress (value : Value) (a : IpAddress) : Prop :=
  ∃ text, value = .string text ∧ IpAddress.parse? text = some a

/-- The value is a number. -/
def MeansNatural (value : Value) (n : ℕ) : Prop := value = .integer n

/-- Where each value of a configuration comes from. -/
structure Effective (options : ServerOptions) (d : Document) (config : ServerConfig) : Prop where
  bind : Settles options.bind d "bind_address" MeansAddress (.v4 0 0 0 0) config.bind
  port : Settles options.port d "renderer_port" MeansNatural defaultPort config.port
  verbose : config.verbose = true ↔
    options.verbose = true ∨ d.find? "verbose" = some (.value (.boolean true))
  timeout : Settles none d "handshake_timeout_secs" MeansNatural handshakeSeconds config.timeout

variable {options : ServerOptions} {content : Option ByteArray} {d : Document}
  {config : ServerConfig}

theorem settles_of_field {α : Type} {key : String} {preset a : α} {read? : Value → Option α}
    {Means : Value → α → Prop} (read : field d key preset read? = some a)
    (means : ∀ value a, read? value = some a → Means value a) :
    Settles none d key Means preset a := by
  rw [field] at read
  split at read
  · next absent =>
    obtain rfl := Option.some.inj read
    exact .preset rfl absent
  · next here => exact .file rfl here (means _ _ read)
  · cases read

theorem Settles.getD {α : Type} {key : String} {preset a : α} {Means : Value → α → Prop}
    (h : Settles none d key Means preset a) (given? : Option α) :
    Settles given? d key Means preset (given?.getD a) := by
  rcases given? with _ | b
  · exact h
  · exact .option rfl

theorem readNatural_eq_some_iff {bound n : ℕ} {value : Value} :
    readNatural bound value = some n ↔ MeansNatural value n ∧ n ≤ bound := by
  rw [MeansNatural]
  unfold readNatural
  split
  · next i =>
    rw [Option.ite_none_right_eq_some, Option.some.injEq, Value.integer.injEq]
    omega
  · next other =>
    refine iff_of_false nofun ?_
    rintro ⟨rfl, -⟩
    exact other n rfl

theorem readAddress_eq_some_iff {value : Value} {a : IpAddress} :
    readAddress value = some a ↔ MeansAddress value a := by
  unfold readAddress
  split
  · next text =>
    constructor
    · exact fun parses ↦ ⟨text, rfl, parses⟩
    · rintro ⟨_, ⟨⟩, parses⟩
      exact parses
  · next other =>
    refine iff_of_false nofun ?_
    rintro ⟨text, rfl, -⟩
    exact other text rfl

theorem readBoolean_eq_some_iff {value : Value} {b : Bool} :
    readBoolean value = some b ↔ value = .boolean b := by
  unfold readBoolean
  split
  · next c => rw [Option.some.injEq, Value.boolean.injEq]
  · next other =>
    refine iff_of_false nofun ?_
    rintro rfl
    exact other b rfl

/-- What the reading of a document comes to. -/
theorem ofDocument?_eq_some_iff : ofDocument? d = some config ↔
    field d "bind_address" (.v4 0 0 0 0) readAddress = some config.bind ∧
      field d "renderer_port" defaultPort (readNatural maxPort) = some config.port ∧
      field d "verbose" false readBoolean = some config.verbose ∧
      field d "handshake_timeout_secs" handshakeSeconds (readNatural maxSeconds) =
        some config.timeout := by
  simp only [ofDocument?, Option.bind_eq_bind, Option.bind_eq_some_iff, Option.pure_def,
    Option.some.injEq]
  constructor
  · rintro ⟨_, bind, _, port, _, verbose, _, timeout, rfl⟩
    exact ⟨bind, port, verbose, timeout⟩
  · rintro ⟨bind, port, verbose, timeout⟩
    exact ⟨_, bind, _, port, _, verbose, _, timeout, rfl⟩

theorem ofFile_text_eq_ok_iff {bytes : ByteArray} {text : String}
    (decodes : String.fromUTF8? bytes = some text) : ofFile (some bytes) = .ok config ↔
      ∃ d, Document.parse? text = some d ∧ ofDocument? d = some config := by
  rw [ofFile, fileText, decodes, ← Option.bind_eq_some_iff]
  dsimp only
  rcases (Document.parse? text).bind ofDocument? with _ | file
  · show Except.error ConfigError.invalid = .ok config ↔ none = some config
    simp
  · show Except.ok file = .ok config ↔ some file = some config
    rw [Except.ok.injEq, Option.some.injEq]

theorem ofFile_eq_ok_iff : ofFile content = .ok config ↔
    ∃ d, Holds content d ∧ ofDocument? d = some config := by
  constructor
  · intro read
    rcases content with _ | bytes
    · cases read
      exact ⟨{}, .absent, rfl⟩
    · rcases decodes : String.fromUTF8? bytes with _ | text
      · rw [ofFile, fileText, decodes] at read
        cases read
      · obtain ⟨d, parses, means⟩ := (ofFile_text_eq_ok_iff decodes).1 read
        exact ⟨d, .text decodes parses, means⟩
  · rintro ⟨d, holds, means⟩
    cases holds with
    | absent =>
      have silent : ofDocument? {} = some {} := rfl
      obtain rfl := Option.some.inj (silent.symm.trans means)
      rfl
    | text decodes parses => exact (ofFile_text_eq_ok_iff decodes).2 ⟨d, parses, means⟩

theorem load_eq_ok_iff : load options content = .ok config ↔
    ∃ file, ofFile content = .ok file ∧ file.override options = config := by
  rw [load]
  rcases ofFile content with reason | file
  · exact iff_of_false nofun fun ⟨_, read, _⟩ ↦ nomatch read
  · constructor
    · rintro ⟨⟩
      exact ⟨file, rfl, rfl⟩
    · rintro ⟨_, ⟨⟩, rfl⟩
      rfl

/-- Each value of a configuration that is loaded has its one place. -/
theorem effective_of_ofDocument? {file : ServerConfig} (read : ofDocument? d = some file)
    (options : ServerOptions) : Effective options d (file.override options) := by
  obtain ⟨bind, port, verbose, timeout⟩ := ofDocument?_eq_some_iff.1 read
  constructor
  case bind =>
    exact (settles_of_field bind fun _ _ ↦ readAddress_eq_some_iff.1).getD options.bind
  case port =>
    exact (settles_of_field port fun _ _ read ↦ (readNatural_eq_some_iff.1 read).1).getD
      options.port
  case verbose =>
    have set : file.verbose = true ↔ d.find? "verbose" = some (.value (.boolean true)) := by
      rw [field] at verbose
      split at verbose
      · next absent =>
        rw [← Option.some.inj verbose, absent]
        exact iff_of_false nofun nofun
      · next here =>
        rw [here, readBoolean_eq_some_iff.1 verbose]
        simp
      · cases verbose
    show (file.verbose || options.verbose) = true ↔ _
    rw [Bool.or_eq_true, set, or_comm]
  case timeout =>
    exact settles_of_field timeout fun _ _ read ↦ (readNatural_eq_some_iff.1 read).1

/-! ### Sizes -/

theorem integerUpTo?_le {bound n : ℕ} {text : String}
    (read : Text.integerUpTo? bound text = some n) : n ≤ bound := by
  unfold Text.integerUpTo? at read
  split at read
  · split at read
    · cases read
    · split at read
      · exact Option.some.inj read ▸ Nat.zero_le bound
      · cases read
  · rcases natural : Text.naturalUpTo bound text with reason | m
    · rw [natural] at read
      cases read
    · rw [natural] at read
      obtain rfl := Option.some.inj read
      exact (Text.naturalUpTo_eq_ok_iff.1 natural).2

/-- The sizes of what a file can hold. -/
structure Fits (config : ServerConfig) : Prop where
  port : config.port ≤ maxPort
  timeout : config.timeout ≤ maxInteger

theorem port_le_of_read {arguments : List String}
    (accepted : ServerOptions.read arguments = .ok options) {port : ℕ}
    (given : options.port = some port) : port ≤ maxPort := by
  rw [ServerOptions.read] at accepted
  rcases read : ServerOptions.grammar.read arguments with refusal | a
  · rw [read] at accepted
    cases accepted
  · rw [read] at accepted
    cases accepted
    obtain ⟨text, -, read⟩ := Option.bind_eq_some_iff.1 given
    exact integerUpTo?_le read

theorem natural_le_of_field {key : String} {bound preset n : ℕ} (small : preset ≤ bound)
    (read : field d key preset (readNatural bound) = some n) : n ≤ bound := by
  rw [field] at read
  split at read
  · exact Option.some.inj read ▸ small
  · exact (readNatural_eq_some_iff.1 read).2
  · cases read

theorem Holds.isSigned64 (h : Holds content d) {key : String} {value : Value}
    (here : d.find? key = some (.value value)) : value.IsSigned64 := by
  cases h with
  | absent => cases here
  | text decodes parses => exact isSigned64_of_parse? parses here

/-- A waiting time from a file is one that a file can hold. -/
theorem Holds.timeout_le (h : Holds content d) (read : ofDocument? d = some config) :
    config.timeout ≤ maxInteger := by
  obtain ⟨-, -, -, timeout⟩ := ofDocument?_eq_some_iff.1 read
  rw [field] at timeout
  split at timeout
  · exact Option.some.inj timeout ▸ (by decide : handshakeSeconds ≤ maxInteger)
  · next value here =>
    -- the bound of the reader is the greater one, so it is the file that counts
    obtain ⟨rfl, -⟩ := readNatural_eq_some_iff.1 timeout
    have small := (h.isSigned64 here).2
    rw [maxInteger]
    omega
  · cases timeout

/-- What is loaded can be saved. -/
theorem fits_of_load {arguments : List String}
    (accepted : ServerOptions.read arguments = .ok options)
    (loaded : load options content = .ok config) : config.Fits := by
  obtain ⟨file, read, rfl⟩ := load_eq_ok_iff.1 loaded
  obtain ⟨d, holds, means⟩ := ofFile_eq_ok_iff.1 read
  have timeout : file.timeout ≤ maxInteger := holds.timeout_le means
  refine ⟨?_, timeout⟩
  show options.port.getD file.port ≤ maxPort
  rcases given : options.port with _ | port
  · obtain ⟨-, port, -, -⟩ := ofDocument?_eq_some_iff.1 means
    exact natural_le_of_field (by decide) port
  · exact port_le_of_read accepted given

/-! ### What is saved -/

/-- An address needs no escapes. -/
theorem isQuoted_of_isPart {c : Char} (h : IpAddress.isPart c = true) : isQuoted c = true := by
  have other {d : Char} (no : IpAddress.isPart d = false) : c ≠ d := by
    rintro rfl
    exact Bool.false_ne_true (no.symm.trans h)
  have plain : c ≠ '\x7f' ∧ c ≠ '"' ∧ c ≠ '\\' :=
    ⟨other (by decide), other (by decide), other (by decide)⟩
  simp [isQuoted, isComment, IpAddress.le_of_isPart h, plain]

/-- The lines of the file that is saved. -/
def entries (config : ServerConfig) (fits : config.Fits) : List Entry :=
  [{ key := "bind_address"
     value := .string (String.ofList config.bind.chars)
     text := '"' :: (config.bind.chars ++ ['"'])
     nonempty := by decide
     bare := List.all_eq_true.1 rfl
     written := .string config.bind.chars_ne_nil fun c here ↦
       isQuoted_of_isPart (config.bind.isPart_chars c here) },
    { key := "renderer_port"
      value := .integer config.port
      text := Nat.toDigits 10 config.port
      nonempty := by decide
      bare := List.all_eq_true.1 rfl
      written := .integer (fits.port.trans (by decide)) },
    { key := "verbose"
      value := .boolean config.verbose
      text := if config.verbose then ['t', 'r', 'u', 'e'] else ['f', 'a', 'l', 's', 'e']
      nonempty := by decide
      bare := List.all_eq_true.1 rfl
      written := by
        rcases config.verbose with _ | _
        · exact .no
        · exact .yes },
    { key := "handshake_timeout_secs"
      value := .integer config.timeout
      text := Nat.toDigits 10 config.timeout
      nonempty := by decide
      bare := List.all_eq_true.1 rfl
      written := .integer fits.timeout }]

theorem save_eq (fits : config.Fits) :
    config.save = String.ofList ((config.entries fits).flatMap Entry.chars) := by
  have address : String.ofList ('"' :: (config.bind.chars ++ ['"'])) =
      "\"" ++ (config.bind.text ++ "\"") := by
    show String.ofList (['"'] ++ (config.bind.chars ++ ['"'])) = _
    rw [String.ofList_append, String.ofList_append]
    rfl
  have truth : String.ofList (if config.verbose then ['t', 'r', 'u', 'e']
      else ['f', 'a', 'l', 's', 'e']) = if config.verbose then "true" else "false" := by
    rcases config.verbose with _ | _ <;> rfl
  -- the literals of the file are cut where a line is made of them
  calc config.save
    _ = "bind_address" ++ (" = " ++ "\"") ++ config.bind.text ++ ("\"" ++ "\n")
          ++ ("renderer_port" ++ " = ") ++ toString config.port ++ "\n"
          ++ ("verbose" ++ " = ") ++ (if config.verbose then "true" else "false") ++ "\n"
          ++ ("handshake_timeout_secs" ++ " = ") ++ toString config.timeout ++ "\n" := rfl
    _ = String.ofList ((config.entries fits).flatMap Entry.chars) := by
      simp only [entries, List.flatMap_cons, List.flatMap_nil, List.append_nil,
        String.ofList_append, Entry.ofList_chars, address, truth, Nat.toString_eq_ofList_toDigits,
        String.append_assoc]

/-- A document that gives the lines that are saved gives the configuration. -/
theorem ofDocument?_of_gives (fits : config.Fits) (gives : d.Gives (config.entries fits)) :
    ofDocument? d = some config := by
  have found := gives.found
  simp only [entries, List.forall_mem_cons] at found
  obtain ⟨bind, port, verbose, timeout, -⟩ := found
  refine ofDocument?_eq_some_iff.2 ⟨?_, ?_, ?_, ?_⟩
  · rw [field, bind]
    exact config.bind.parse?_text
  · rw [field, port]
    exact readNatural_eq_some_iff.2 ⟨rfl, fits.port⟩
  · rw [field, verbose]
    rfl
  · rw [field, timeout]
    exact readNatural_eq_some_iff.2 ⟨rfl, fits.timeout.trans (by decide)⟩

theorem distinct_entries (fits : config.Fits) : ((config.entries fits).map Entry.key).Nodup := by
  show ["bind_address", "renderer_port", "verbose", "handshake_timeout_secs"].Nodup
  decide

theorem ofFile_save (fits : config.Fits) : ofFile (some config.save.toUTF8) = .ok config := by
  obtain ⟨d, parses, gives⟩ := Document.parse?_entries (distinct_entries fits)
  rw [← save_eq] at parses
  rw [ofFile_eq_ok_iff]
  exact ⟨d, .text (fromUTF8?_toUTF8 _) parses, ofDocument?_of_gives fits gives⟩

/-- The options leave a configuration as it is. -/
structure Leaves (options : ServerOptions) : Prop where
  bind : options.bind = none
  port : options.port = none
  verbose : options.verbose = false

/-- The configuration is kept by the file that it is saved to: it can be saved, it comes back from
what is saved, and what comes back is saved as the same text. -/
structure Kept (config : ServerConfig) : Prop where
  saved : ∃ text, config.save? = some text
  loaded : ∀ text, config.save? = some text → ∀ options, Leaves options →
    load options (some text.toUTF8) = .ok config
  again : ∀ text, config.save? = some text → ∀ options, Leaves options → ∀ config',
    load options (some text.toUTF8) = .ok config' → config'.save? = some text

theorem kept_of_fits (fits : config.Fits) : config.Kept := by
  have saved : config.save? = some config.save := if_pos fits.timeout
  have loaded {options : ServerOptions} (leaves : Leaves options) :
      load options (some config.save.toUTF8) = .ok config := by
    refine load_eq_ok_iff.2 ⟨config, ofFile_save fits, ?_⟩
    rw [override, leaves.bind, leaves.port, leaves.verbose]
    simp
  constructor
  case saved => exact ⟨config.save, saved⟩
  case loaded =>
    intro text same options leaves
    obtain rfl := Option.some.inj (saved.symm.trans same)
    exact loaded leaves
  case again =>
    intro text same options leaves config' loaded'
    obtain rfl := Option.some.inj (saved.symm.trans same)
    obtain rfl := Except.ok.inj ((loaded leaves).symm.trans loaded')
    exact saved

/-- What counts is what is saved: whatever the arguments are and whatever is in the file, each value
of a configuration that is loaded has its one place, and the configuration is kept by the file that
it is saved to. -/
theorem load_kept {arguments : List String} (accepted : ServerOptions.read arguments = .ok options)
    (loaded : load options content = .ok config) :
    (∃ d, Holds content d ∧ Effective options d config) ∧ config.Kept := by
  refine ⟨?_, kept_of_fits (fits_of_load accepted loaded)⟩
  obtain ⟨file, read, rfl⟩ := load_eq_ok_iff.1 loaded
  obtain ⟨d, holds, means⟩ := ofFile_eq_ok_iff.1 read
  exact ⟨d, holds, effective_of_ofDocument? means options⟩

/-- The port is that of the arguments, the address that of the file, and the waiting time the
preset one. -/
theorem load_kept_loopback : ∃ options config,
    ServerOptions.read ["--port", "6001", "-v"] = .ok options ∧
      load options (some "bind_address = \"::1\"\nrenderer_port = 6000\n".toUTF8) = .ok config ∧
      config = { bind := .v6 #v[0, 0, 0, 0, 0, 0, 0, 1], port := 6001, verbose := true } ∧
      (∃ d, Holds (some "bind_address = \"::1\"\nrenderer_port = 6000\n".toUTF8) d ∧
        Effective options d config) ∧ config.Kept := by
  have accepted : ServerOptions.read ["--port", "6001", "-v"] =
      .ok { config := none, port := some 6001, bind := none, verbose := true,
            writeConfig := false } := rfl
  have loaded : load { config := none, port := some 6001, bind := none, verbose := true,
                       writeConfig := false }
      (some "bind_address = \"::1\"\nrenderer_port = 6000\n".toUTF8) =
        .ok { bind := .v6 #v[0, 0, 0, 0, 0, 0, 0, 1], port := 6001, verbose := true } := by
    decide +kernel
  exact ⟨_, _, accepted, loaded, rfl, load_kept accepted loaded⟩

end ServerConfig

end ShowControl
