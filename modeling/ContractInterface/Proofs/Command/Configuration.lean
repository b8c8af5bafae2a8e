/-
# Which errors of a configuration are passed on

The command reports the errors of its configuration that it knows of, and passes on the others.
Four things make an error that is passed on: the option for the settings file has no value, the file
is not in the form it should be, the timeout is no text and has no reading as a number, or the
network is no text and no server is given.  Texts may be texts of bytes.  The reader of settings
files may be any.  The main results are

* `Config.passesOn_iff`: which settings lead to such an error, whatever their values are;
* `configure_passesOn_iff`: which surroundings and arguments do.
-/
import Mathlib.Tactic.SplitIfs
import ContractInterface.Command

namespace ContractInterface

open Command (reports)

/-- There is an error, and the command passes it on. -/
def PassesErrorOn {α : Type} (result : Except ConfigError α) : Prop :=
  ∃ error, result = .error error ∧ reports error = false

lemma not_passesErrorOn_ok {α : Type} (value : α) : ¬PassesErrorOn (.ok value) := by
  rintro ⟨error, h, -⟩
  cases h

lemma passesErrorOn_error_iff {α : Type} {error : ConfigError} :
    PassesErrorOn (.error error : Except ConfigError α) ↔ reports error = false := by
  constructor
  · rintro ⟨found, h, hpasses⟩
    rwa [Except.error.inj h]
  · intro h
    exact ⟨error, rfl, h⟩

/-- An error is passed on by the first of two parts, or by the second behind it. -/
lemma passesErrorOn_bind_iff {α β : Type} {first : Except ConfigError α}
    {second : α → Except ConfigError β} :
    PassesErrorOn (first >>= second) ↔
      PassesErrorOn first ∨ ∃ value, first = .ok value ∧ PassesErrorOn (second value) := by
  cases first with
  | ok value =>
    constructor
    · exact fun h => .inr ⟨value, rfl, h⟩
    · rintro (h | ⟨found, hfound, h⟩)
      · exact absurd h (not_passesErrorOn_ok value)
      · rwa [Except.ok.inj hfound]
  | error error =>
    constructor
    · rintro ⟨found, h, hpasses⟩
      exact .inl ⟨found, congrArg Except.error (Except.error.inj h), hpasses⟩
    · rintro (⟨found, h, hpasses⟩ | ⟨value, hvalue, -⟩)
      · exact ⟨found, congrArg Except.error (Except.error.inj h), hpasses⟩
      · cases hvalue

/-! ### Settings -/

namespace Settings

/-- A value that is no text and has no reading as a number. -/
inductive HasNoNumber : Setting → Prop where
  | null : HasNoNumber (.json .null)
  | list (items : List Json) : HasNoNumber (.json (.arr items))
  | mapping (members : List (String × Json)) : HasNoNumber (.json (.obj members))
  | tooLarge {n : Int} {negative : Bool} (h : Binary64.ofInt n = .infinite negative) :
    HasNoNumber (.json (.int n))
  | other (shown : String) (counts : Bool) : HasNoNumber (.other shown counts)

/-- That a text is not the text of a number is reported. -/
lemma numberFrom_not_passesOn (number? : Option Binary64) (quoted : String) :
    ¬PassesErrorOn (numberFrom number? quoted) := by
  cases number? with
  | some x => exact not_passesErrorOn_ok _
  | none => exact fun h => Bool.noConfusion (passesErrorOn_error_iff.1 h)

lemma timeoutOf_json_passesOn_iff {value : Json} :
    PassesErrorOn (timeoutOf (.json value)) ↔ HasNoNumber (.json value) := by
  cases value with
  | null => exact iff_of_true ⟨_, rfl, rfl⟩ .null
  | arr items => exact iff_of_true ⟨_, rfl, rfl⟩ (.list items)
  | obj members => exact iff_of_true ⟨_, rfl, rfl⟩ (.mapping members)
  | float x => exact iff_of_false (not_passesErrorOn_ok _) nofun
  | bool b => exact iff_of_false (not_passesErrorOn_ok _) nofun
  | str text =>
    refine iff_of_false ?_ nofun
    exact numberFrom_not_passesOn (Text.decimal? text) (Text.quoted text)
  | int n =>
    rw [timeoutOf]
    cases hn : Binary64.ofInt n with
    | infinite negative => exact iff_of_true ⟨_, rfl, rfl⟩ (.tooLarge hn)
    | nan | finite =>
      refine iff_of_false (not_passesErrorOn_ok _) fun hno => ?_
      cases hno with
      | tooLarge hlarge =>
        rw [hn] at hlarge
        cases hlarge

lemma timeoutOf_passesOn_iff {value : Setting} :
    PassesErrorOn (timeoutOf value) ↔ HasNoNumber value := by
  cases value with
  | json value => exact timeoutOf_json_passesOn_iff
  | bytes contents =>
    refine iff_of_false ?_ nofun
    exact numberFrom_not_passesOn (numberOfBytes? contents) (Text.quotedBytes contents)
  | other shown counts => exact iff_of_true ⟨_, rfl, rfl⟩ (.other shown counts)

/-- A settings file that a reader finds not to be in the form it should be. -/
def IllFormed (reader : Reader) (node : String → Node) (path : String) : Prop :=
  ∃ contents reason, node (Files.normalize path) = .file contents ∧
    reader contents = .error (.malformed reason)

lemma inFile_passesOn_iff {reader : Reader} {node : String → Node} {path : String} :
    PassesErrorOn (inFile reader node path) ↔ IllFormed reader node path := by
  rw [inFile, IllFormed]
  cases node (Files.normalize path) with
  | missing | blocked => exact iff_of_false (not_passesErrorOn_ok _) nofun
  | folder =>
    refine iff_of_false ?_ nofun
    exact fun h => Bool.noConfusion (passesErrorOn_error_iff.1 h)
  | file contents =>
    dsimp only
    cases hread : reader contents with
    | error reason =>
      rw [passesErrorOn_error_iff]
      cases reason with
      | malformed reason => exact iff_of_true rfl ⟨contents, reason, rfl, hread⟩
      | notText | noValue =>
        refine iff_of_false Bool.noConfusion ?_
        rintro ⟨_, reason', ⟨⟩, hmalformed⟩
        rw [hread] at hmalformed
        cases hmalformed
    | ok found =>
      apply iff_of_false
      · cases found with
        | mapping members => exact not_passesErrorOn_ok _
        | other counts =>
          dsimp only
          split_ifs
          · exact fun h => Bool.noConfusion (passesErrorOn_error_iff.1 h)
          · exact not_passesErrorOn_ok _
      · rintro ⟨_, reason, ⟨⟩, hmalformed⟩
        rw [hread] at hmalformed
        cases hmalformed

lemma load_passesOn_iff {reader : Reader} {node : String → Node} {environment : Variables}
    {path : String} :
    PassesErrorOn (load reader node environment (some path)) ↔ IllFormed reader node path := by
  rw [load, passesErrorOn_bind_iff, inFile_passesOn_iff]
  exact or_iff_left fun ⟨_, _, h⟩ => not_passesErrorOn_ok _ h

end Settings

/-! ### Configurations -/

namespace Config

/-- The server that settings and a caller name. -/
def serverGiven (members : List (String × Setting)) (network rpcUrl : Json) : Setting :=
  match rpcUrl, network with
  | .null, .null => (members.lookup "rpc_url").getD (.json .null)
  | rpcUrl, _ => .json rpcUrl

/-- The network that settings and a caller name, or the one that is used else. -/
def networkGiven (members : List (String × Setting)) (network : Json) : Setting :=
  firstGiven (.json (.str Settings.defaultNetwork))
    [.json network, (members.lookup "network").getD (.json .null)]

/-- The timeout that settings name, or the one that is used else. -/
def timeoutGiven (members : List (String × Setting)) : Setting :=
  (members.lookup "timeout").getD (.json Settings.defaultTimeout)

/-- A value that is a text, of characters or of bytes. -/
inductive IsText : Setting → Prop where
  | text (name : String) : IsText (.json (.str name))
  | bytes (contents : Bytes) : IsText (.bytes contents)

/-- Settings of which an error comes that is passed on. -/
inductive Unread (members : List (String × Setting)) (network rpcUrl : Json) : Prop where
  /-- The timeout has no reading. -/
  | timeout (h : Settings.HasNoNumber (timeoutGiven members))
  /-- No server is given, and the network is no text. -/
  | network {timeout : Json} (htimeout : Settings.timeoutOf (timeoutGiven members) = .ok timeout)
    (hserver : (serverGiven members network rpcUrl).isTruthy = false)
    (hnetwork : ¬IsText (networkGiven members network))

lemma ofNetwork_passesOn_iff {network : Setting} {timeout : Json} :
    PassesErrorOn (ofNetwork network timeout) ↔ ¬IsText network := by
  cases network with
  | bytes contents =>
    refine iff_of_false ?_ fun h => h (.bytes contents)
    exact fun h => Bool.noConfusion (passesErrorOn_error_iff.1 h)
  | other shown counts => exact iff_of_true ⟨_, rfl, rfl⟩ nofun
  | json value =>
    cases value with
    | str name =>
      refine iff_of_false ?_ fun h => h (.text name)
      rw [ofNetwork]
      cases Network.ofName? name with
      | some network => exact not_passesErrorOn_ok _
      | none => exact fun h => Bool.noConfusion (passesErrorOn_error_iff.1 h)
    | _ => exact iff_of_true ⟨_, rfl, rfl⟩ nofun

/-- **Settings, whatever their values are, lead to an error that is passed on exactly if their
timeout or their network is unread.** -/
theorem passesOn_iff {members : List (String × Setting)} {network rpcUrl : Json} :
    PassesErrorOn (ofMembers members network rpcUrl) ↔ Unread members network rpcUrl := by
  have hmembers : ofMembers members network rpcUrl =
      (do
        let timeout ← Settings.timeoutOf (timeoutGiven members)
        if (serverGiven members network rpcUrl).isTruthy then
          return ⟨serverGiven members network rpcUrl, timeout, networkGiven members network⟩
        else ofNetwork (networkGiven members network) timeout) := rfl
  rw [hmembers, passesErrorOn_bind_iff, Settings.timeoutOf_passesOn_iff]
  constructor
  · rintro (h | ⟨timeout, htimeout, h⟩)
    · exact .timeout h
    · split_ifs at h with hserver
      · exact absurd h (not_passesErrorOn_ok _)
      · exact .network htimeout (Bool.eq_false_iff.2 hserver) (ofNetwork_passesOn_iff.1 h)
  · rintro (h | ⟨htimeout, hserver, hnetwork⟩)
    · exact .inl h
    · refine .inr ⟨_, htimeout, ?_⟩
      rw [hserver]
      exact ofNetwork_passesOn_iff.2 hnetwork

end Config

namespace Command

/-- Surroundings and arguments of which an error of the configuration comes that is passed on. -/
inductive Oversight (around : Surroundings) (arguments : Arguments) : Prop where
  /-- The option for the settings file has no value. -/
  | noPath (hpath : arguments.settings = none)
  /-- The settings file is not in the form it should be. -/
  | illFormed {path : String} (hpath : arguments.settings = some path)
    (hform : Settings.IllFormed around.reader around.node path)
  /-- The timeout or the network is unread. -/
  | unread {path : String} {members : List (String × Setting)}
    (hpath : arguments.settings = some path)
    (hload : Settings.load around.reader around.node around.environment (some path) = .ok members)
    (hunread : Config.Unread members (.ofText? arguments.network) (.ofText? arguments.rpcUrl))

/-- **An error of the configuration is passed on exactly because of one of these oversights.** -/
theorem configure_passesOn_iff {around : Surroundings} {arguments : Arguments} :
    PassesErrorOn (configure around arguments) ↔ Oversight around arguments := by
  rw [configure]
  cases hpath : arguments.settings with
  | none => exact iff_of_true ⟨_, rfl, rfl⟩ (.noPath hpath)
  | some path =>
    have hconfigure : PassesErrorOn (do
        let settings ← Settings.load around.reader around.node around.environment (some path)
        Config.ofMembers settings (.ofText? arguments.network)
          (.ofText? arguments.rpcUrl)) ↔ Oversight around arguments := by
      rw [passesErrorOn_bind_iff, Settings.load_passesOn_iff]
      constructor
      · rintro (hform | ⟨members, hload, h⟩)
        · exact .illFormed hpath hform
        · exact .unread hpath hload (Config.passesOn_iff.1 h)
      · rintro (hnone | ⟨hpath', hform⟩ | ⟨hpath', hload, hunread⟩)
        · rw [hpath] at hnone
          cases hnone
        · obtain rfl := Option.some.inj (hpath.symm.trans hpath')
          exact .inl hform
        · obtain rfl := Option.some.inj (hpath.symm.trans hpath')
          exact .inr ⟨_, hload, Config.passesOn_iff.2 hunread⟩
    exact hconfigure

end Command

end ContractInterface
