import Mathlib
import PromptDesk.Settings.Environment

/-! Settings with an environment on top. The variables are read in a fixed order, and the first one
whose value means nothing decides the failure and is named in it. If there is none, each setting is
what its own variable means, or what it was before if the variable is not set, and nothing else
matters; so laying the same environment on top again changes nothing. -/
namespace PromptDesk

section

variable {ε α β : Type} {x : Except ε α} {f : α → Except ε β}

theorem bind_eq_ok_iff {b : β} : (x >>= f) = .ok b ↔ ∃ a, x = .ok a ∧ f a = .ok b := by
  cases x with
  | error e => exact iff_of_false nofun nofun
  | ok a => exact ⟨fun h => ⟨a, rfl, h⟩, fun ⟨_, ha, h⟩ => Except.ok.inj ha ▸ h⟩

theorem bind_eq_error_iff {e : ε} :
    (x >>= f) = .error e ↔ x = .error e ∨ ∃ a, x = .ok a ∧ f a = .error e := by
  cases x with
  | error e' =>
    exact ⟨fun h => .inl (congrArg _ (Except.error.inj h)), fun h =>
      h.elim (fun he => congrArg _ (Except.error.inj he)) nofun⟩
  | ok a =>
    refine ⟨fun h => .inr ⟨a, rfl, h⟩, fun h => ?_⟩
    obtain ⟨_, ha, h⟩ := h.resolve_left nofun
    exact Except.ok.inj ha ▸ h

end

namespace Environment

open Text (trim trimChars lowerAscii isDigit)

/-! ### What values mean -/

/-- The words for a truth value. -/
def wordsFor : Bool → List String
  | true => ["1", "true", "yes", "on"]
  | false => ["0", "false", "no", "off"]

/-- A word for a truth value, capitals and blanks around it aside. -/
def MeansBool (value : String) (b : Bool) : Prop := lowerAscii (trim value) ∈ wordsFor b

/-- One or more decimal digits with or without a plus sign, blanks around them aside, that write the
number of a word, the last digit for the ones. -/
def MeansWord (value : String) (n : UInt64) : Prop :=
  ∃ ds : List Char, ((trim value).toList = ds ∨ (trim value).toList = '+' :: ds) ∧ ds ≠ [] ∧
    (∀ d ∈ ds, '0' ≤ d ∧ d ≤ '9') ∧
    n.toNat = Nat.ofDigits 10 (ds.reverse.map fun d => d.toNat - '0'.toNat)

/-- The name of a destination, blanks around it aside. -/
def MeansDestination (value : String) (d : Destination) : Prop := trim value = name d

/-- A reader finds what a value means. If it means nothing, the reader finds this fault. -/
structure Finds {α : Type} (read : String → Except Fault α) (means : String → α → Prop)
    (fault : String → Fault) : Prop where
  ok : ∀ v a, read v = .ok a ↔ means v a
  error : ∀ v f, read v = .error f → f = fault v

/-- Reading a value is finding what it means, if that is one thing at most. -/
theorem Finds.of_option {α : Type} {read : String → Except Fault α} {means : String → α → Prop}
    {fault : String → Fault} {meaning? : String → Option α}
    (hread : ∀ v, read v = (meaning? v).elim (.error (fault v)) .ok)
    (hmeans : ∀ v a, meaning? v = some a ↔ means v a) : Finds read means fault where
  ok v a := by
    rw [hread, ← hmeans]
    cases meaning? v <;> simp
  error v f h := by
    rw [hread] at h
    cases hv : meaning? v with
    | some a =>
      rw [hv] at h
      cases h
    | none =>
      rw [hv] at h
      exact (Except.error.inj h).symm

/-- No word stands for both. -/
theorem not_mem_wordsFor {word : String} (h : word ∈ wordsFor true) : word ∉ wordsFor false := by
  simp only [wordsFor, List.mem_cons, List.not_mem_nil, or_false] at h ⊢
  rcases h with rfl | rfl | rfl | rfl <;> decide

/-- The truth value that a word stands for. -/
def truth? (word : String) : Option Bool :=
  if (wordsFor true).contains word then some true
  else if (wordsFor false).contains word then some false
  else none

theorem truth?_eq_some_iff {word : String} {b : Bool} : truth? word = some b ↔ word ∈ wordsFor b := by
  simp only [truth?, List.contains_iff_mem]
  by_cases hyes : word ∈ wordsFor true
  · have hno := not_mem_wordsFor hyes
    cases b <;> simp [hyes, hno]
  · by_cases hno : word ∈ wordsFor false <;> cases b <;> simp [hyes, hno]

theorem readBool_eq (key value : String) : readBool key value =
    if (wordsFor true).contains (lowerAscii (trim value)) then .ok true
    else if (wordsFor false).contains (lowerAscii (trim value)) then .ok false
    else .error (.notBoolean key (lowerAscii (trim value))) := rfl

theorem finds_readBool (key : String) :
    Finds (readBool key) MeansBool fun v => .notBoolean key (lowerAscii (trim v)) := by
  have means (v : String) (b : Bool) : truth? (lowerAscii (trim v)) = some b ↔ MeansBool v b :=
    truth?_eq_some_iff
  refine .of_option (fun v => ?_) means
  rw [readBool_eq, truth?]
  split
  · rfl
  · split <;> rfl

theorem digitsValue_eq (ds : List Char) : Text.digitsValue ds =
    Nat.ofDigits 10 (ds.reverse.map fun d => d.toNat - '0'.toNat) := by
  rw [Text.digitsValue]
  induction ds using List.reverseRecOn with
  | nil => rfl
  | append_singleton ds d ih =>
    rw [Nat.ofDigitChars_append, ih, List.reverse_concat, List.map_cons, Nat.ofDigits_cons,
      Nat.ofDigitChars_cons, Nat.ofDigitChars_nil, Nat.add_comm]

theorem word?_iff {m : Nat} {n : UInt64} : Text.word? m = some n ↔ n.toNat = m := by
  rw [Text.word?]
  split
  · rename_i hm
    rw [Option.some.injEq, ← UInt64.toNat_inj, UInt64.toNat_ofNat_of_lt' hm, eq_comm]
  · rename_i hm
    simp only [reduceCtorEq, false_iff]
    exact fun h => hm (h ▸ n.toNat_lt)

theorem readNat?_bind_iff {ds : List Char} {n : UInt64} :
    (Text.readNat? ds).bind Text.word? = some n ↔ ds ≠ [] ∧ (∀ d ∈ ds, '0' ≤ d ∧ d ≤ '9') ∧
      n.toNat = Nat.ofDigits 10 (ds.reverse.map fun d => d.toNat - '0'.toNat) := by
  rw [Text.readNat?, ← digitsValue_eq, ← word?_iff]
  split
  · rename_i h
    simp_all [isDigit]
  · rename_i h
    refine iff_of_false nofun fun ⟨hne, hd, _⟩ => h ?_
    simpa [isDigit, hne] using hd

theorem word?_eq_some_iff {cs : List Char} {n : UInt64} : word? cs = some n ↔
    ∃ ds : List Char, (cs = ds ∨ cs = '+' :: ds) ∧ ds ≠ [] ∧ (∀ d ∈ ds, '0' ≤ d ∧ d ≤ '9') ∧
      n.toNat = Nat.ofDigits 10 (ds.reverse.map fun d => d.toNat - '0'.toNat) := by
  have plus : ¬ ('0' ≤ '+' ∧ '+' ≤ '9') := by decide
  unfold word?
  split
  · rename_i rest
    rw [readNat?_bind_iff]
    refine ⟨fun h => ⟨rest, .inr rfl, h⟩, fun ⟨ds, hcs, h⟩ => ?_⟩
    rcases hcs with rfl | hcs
    · exact absurd (h.2.1 _ List.mem_cons_self) plus
    · exact (List.cons.inj hcs).2 ▸ h
  · rename_i hplus
    rw [readNat?_bind_iff]
    exact ⟨fun h => ⟨cs, .inl rfl, h⟩, fun ⟨ds, hcs, h⟩ =>
      hcs.resolve_right (hplus ds) ▸ h⟩

example : word? "+018446744073709551615".toList = some 18446744073709551615 ∧
    word? "18446744073709551616".toList = none := by decide

theorem finds_readWord (key : String) : Finds (readWord key) MeansWord (.notInteger key) := by
  have means (v : String) (n : UInt64) : word? (trimChars v.toList) = some n ↔ MeansWord v n := by
    rw [MeansWord, trim, String.toList_ofList, ← word?_eq_some_iff]
  refine .of_option (fun v => ?_) means
  rw [readWord]
  cases word? (trimChars v.toList) <;> rfl

theorem finds_readDestination : Finds readDestination MeansDestination .unknownDestination := by
  have means (v : String) (d : Destination) : ofName? (trim v) = some d ↔ MeansDestination v d :=
    ofName?_iff fun a => by cases a <;> rfl
  refine .of_option (fun v => ?_) means
  rw [readDestination]
  cases (ofName? (trim v) : Option Destination) <;> rfl

/-! ### Variables -/

/-- The variables, each for a setting of its own. -/
inductive Variable where
  | streaming
  | thread
  | requestTimeout
  | idleTimeout
  | destination
  | telemetryInterval
  deriving DecidableEq

namespace Variable

/-- All of them, in the order in which they are read. -/
def all : List Variable :=
  [streaming, thread, requestTimeout, idleTimeout, destination, telemetryInterval]

def key : Variable → String
  | streaming => "PARLEY_STREAMING"
  | thread => "PARLEY_THREAD"
  | requestTimeout => "PARLEY_REQUEST_TIMEOUT_MS"
  | idleTimeout => "PARLEY_STREAM_IDLE_TIMEOUT_MS"
  | destination => "PARLEY_DESTINATION"
  | telemetryInterval => "PARLEY_TELEMETRY_INTERVAL_SECS"

/-- A value that means something to the variable. -/
def Accepts (x : Variable) (v : String) : Prop :=
  match x with
  | streaming | thread => ∃ b, MeansBool v b
  | requestTimeout | idleTimeout | telemetryInterval => ∃ n, MeansWord v n
  | destination => ∃ d, MeansDestination v d

/-- The fault of a value that means nothing to the variable. -/
def fault (x : Variable) (v : String) : Fault :=
  match x with
  | streaming | thread => .notBoolean x.key (lowerAscii (trim v))
  | requestTimeout | idleTimeout | telemetryInterval => .notInteger x.key v
  | destination => .unknownDestination v

/-- What is said about such a value. -/
def complaint (x : Variable) (v : String) : String :=
  match x with
  | streaming | thread => "expected a boolean, got " ++ Text.quoted (lowerAscii (trim v))
  | requestTimeout | idleTimeout | telemetryInterval =>
    "expected an integer, got " ++ Text.quoted v
  | destination => "unknown destination " ++ Text.quoted v

/-- The variable is not set, or its value means something to it. -/
def Valid (env : Environment) (x : Variable) : Prop := ∀ v, env x.key = some v → x.Accepts v

/-- The variable is not valid, and those read before it are. -/
def IsFirstInvalid (env : Environment) (x : Variable) : Prop :=
  ∃ before after, all = before ++ x :: after ∧ (∀ y ∈ before, y.Valid env) ∧ ¬ x.Valid env

theorem append_colon {text before what : String} (h : text = before ++ ": " ++ what)
    (after : String) : text ++ after = before ++ ": " ++ (what ++ after) := by
  rw [h, String.append_assoc]

theorem failure_fault (x : Variable) (v : String) :
    (x.fault v).failure = .configuration (x.key ++ ": " ++ x.complaint v) := by
  refine congrArg Failure.configuration ?_
  cases x <;> exact append_colon (by decide) _

end Variable

open Variable (key)

/-- What becomes of a setting: what the value of its variable means, or what it was before if the
variable is not set. -/
def Gives {α : Type} (env : Environment) (key : String) (means : String → α → Prop) (under a : α) :
    Prop :=
  match env key with
  | some v => means v a
  | none => a = under

/-- Settings after an environment was laid on top of others. -/
structure Overlaid (env : Environment) (s s' : Settings) : Prop where
  streaming : Gives env (key .streaming) MeansBool s.streaming s'.streaming
  thread : Gives env (key .thread) MeansBool s.threadEnabled s'.threadEnabled
  requestTimeout :
    Gives env (key .requestTimeout) MeansWord s.requestTimeoutMs s'.requestTimeoutMs
  idleTimeout :
    Gives env (key .idleTimeout) MeansWord s.streamIdleTimeoutMs s'.streamIdleTimeoutMs
  destination :
    Gives env (key .destination) MeansDestination s.defaultDestination s'.defaultDestination
  telemetryInterval :
    Gives env (key .telemetryInterval) MeansWord s.telemetryIntervalSecs s'.telemetryIntervalSecs

section

variable {α β : Type} {env : Environment} {k : String} {read : String → Except Fault α}
  {means : String → α → Prop} {fault : String → Fault} {under a : α} {f : Fault}

theorem Gives.again (h : Gives env k means under a) : Gives env k means a a := by
  cases he : env k with
  | none => simp only [Gives, he]
  | some v => simpa only [Gives, he] using h

theorem exists_gives_iff :
    (∃ a, Gives env k means under a) ↔ ∀ v, env k = some v → ∃ a, means v a := by
  simp only [Gives]
  cases env k with
  | none => simp
  | some v => simp

theorem override_eq_ok_iff (h : Finds read means fault) :
    override env k read under = .ok a ↔ Gives env k means under a := by
  rw [override, Gives]
  cases env k with
  | none => rw [Except.ok.injEq, eq_comm]
  | some v => exact h.ok v a

theorem override_eq_error_iff (h : Finds read means fault) : override env k read under = .error f ↔
    ∃ v, env k = some v ∧ (¬ ∃ a, means v a) ∧ f = fault v := by
  rw [override]
  cases env k with
  | none => exact iff_of_false nofun nofun
  | some v =>
    simp only [Option.some.injEq, exists_eq_left', ← h.ok]
    refine ⟨fun hf => ⟨fun ⟨a, ha⟩ => ?_, h.error v f hf⟩, fun ⟨hnone, hf⟩ => ?_⟩
    · rw [ha] at hf
      cases hf
    · cases hr : read v with
      | ok a => exact absurd ⟨a, hr⟩ hnone
      | error g => rw [hf, h.error v g hr]

/-- A variable decides the failure, or it is valid and what is read after it decides. -/
theorem override_bind_eq_error_iff (h : Finds read means fault) {rest : α → Except Fault β}
    {p : Prop} (hrest : ∀ a, rest a = .error f ↔ p) :
    (override env k read under >>= rest) = .error f ↔
      (∃ v, env k = some v ∧ (¬ ∃ a, means v a) ∧ f = fault v) ∨
        (∀ v, env k = some v → ∃ a, means v a) ∧ p := by
  have valid : (∃ a, Gives env k means under a) ↔ ∀ v, env k = some v → ∃ a, means v a :=
    exists_gives_iff
  rw [bind_eq_error_iff, override_eq_error_iff h, ← valid]
  simp only [hrest, override_eq_ok_iff h, exists_and_right]

end

/-- The fault is that of the first of some variables that is not valid. -/
def FirstFault (env : Environment) (f : Fault) : List Variable → Prop
  | [] => False
  | x :: xs => (∃ v, env x.key = some v ∧ ¬ x.Accepts v ∧ f = x.fault v) ∨
      (x.Valid env ∧ FirstFault env f xs)

variable {env env' : Environment} {s s' : Settings} {f : Fault}

theorem firstFault_iff {xs : List Variable} : FirstFault env f xs ↔
    ∃ before x after v, xs = before ++ x :: after ∧ (∀ y ∈ before, y.Valid env) ∧
      env x.key = some v ∧ ¬ x.Accepts v ∧ f = x.fault v := by
  induction xs with
  | nil => exact iff_of_false id fun ⟨before, x, after, v, h, _⟩ => by simp at h
  | cons x xs ih =>
    rw [FirstFault, ih]
    constructor
    · rintro (⟨v, hv⟩ | ⟨hx, before, y, after, v, rfl, hbefore, hv⟩)
      · exact ⟨[], x, xs, v, rfl, by simp, hv⟩
      · exact ⟨x :: before, y, after, v, rfl, List.forall_mem_cons.2 ⟨hx, hbefore⟩, hv⟩
    · rintro ⟨before, y, after, v, h, hbefore, hv⟩
      cases before with
      | nil =>
        obtain ⟨rfl, rfl⟩ := List.cons.inj h
        exact .inl ⟨v, hv⟩
      | cons z before =>
        obtain ⟨rfl, rfl⟩ := List.cons.inj h
        obtain ⟨hx, hbefore⟩ := List.forall_mem_cons.1 hbefore
        exact .inr ⟨hx, before, y, after, v, rfl, hbefore, hv⟩

theorem withEnvironment_eq (s : Settings) (env : Environment) : s.withEnvironment env = (do
    let streaming ← override env (key .streaming) (readBool (key .streaming)) s.streaming
    let thread ← override env (key .thread) (readBool (key .thread)) s.threadEnabled
    let request ← override env (key .requestTimeout) (readWord (key .requestTimeout))
      s.requestTimeoutMs
    let idle ← override env (key .idleTimeout) (readWord (key .idleTimeout)) s.streamIdleTimeoutMs
    let destination ← override env (key .destination) readDestination s.defaultDestination
    let telemetry ← override env (key .telemetryInterval) (readWord (key .telemetryInterval))
      s.telemetryIntervalSecs
    return ⟨streaming, thread, request, idle, destination, telemetry⟩) := rfl

theorem withEnvironment_eq_ok_iff : s.withEnvironment env = .ok s' ↔ Overlaid env s s' := by
  rw [withEnvironment_eq]
  simp only [bind_eq_ok_iff, override_eq_ok_iff (finds_readBool _),
    override_eq_ok_iff (finds_readWord _), override_eq_ok_iff finds_readDestination]
  constructor
  · rintro ⟨_, h₁, _, h₂, _, h₃, _, h₄, _, h₅, _, h₆, hs⟩
    obtain rfl := Except.ok.inj hs
    exact ⟨h₁, h₂, h₃, h₄, h₅, h₆⟩
  · rintro ⟨h₁, h₂, h₃, h₄, h₅, h₆⟩
    exact ⟨_, h₁, _, h₂, _, h₃, _, h₄, _, h₅, _, h₆, rfl⟩

theorem withEnvironment_eq_error_iff :
    s.withEnvironment env = .error f ↔ FirstFault env f Variable.all := by
  rw [withEnvironment_eq]
  exact override_bind_eq_error_iff (finds_readBool _) fun _ =>
    override_bind_eq_error_iff (finds_readBool _) fun _ =>
    override_bind_eq_error_iff (finds_readWord _) fun _ =>
    override_bind_eq_error_iff (finds_readWord _) fun _ =>
    override_bind_eq_error_iff finds_readDestination fun _ =>
    override_bind_eq_error_iff (finds_readWord _) fun _ => iff_of_false nofun id

/-- Each setting that has to change can be changed on its own. -/
theorem exists_overlaid_iff : (∃ s', Overlaid env s s') ↔ ∀ x : Variable, x.Valid env := by
  constructor
  · rintro ⟨s', h⟩ x
    cases x with
    | streaming => exact exists_gives_iff.1 ⟨_, h.streaming⟩
    | thread => exact exists_gives_iff.1 ⟨_, h.thread⟩
    | requestTimeout => exact exists_gives_iff.1 ⟨_, h.requestTimeout⟩
    | idleTimeout => exact exists_gives_iff.1 ⟨_, h.idleTimeout⟩
    | destination => exact exists_gives_iff.1 ⟨_, h.destination⟩
    | telemetryInterval => exact exists_gives_iff.1 ⟨_, h.telemetryInterval⟩
  · intro h
    obtain ⟨streaming, h₁⟩ := exists_gives_iff.2 (h .streaming)
    obtain ⟨thread, h₂⟩ := exists_gives_iff.2 (h .thread)
    obtain ⟨request, h₃⟩ := exists_gives_iff.2 (h .requestTimeout)
    obtain ⟨idle, h₄⟩ := exists_gives_iff.2 (h .idleTimeout)
    obtain ⟨destination, h₅⟩ := exists_gives_iff.2 (h .destination)
    obtain ⟨telemetry, h₆⟩ := exists_gives_iff.2 (h .telemetryInterval)
    exact ⟨⟨streaming, thread, request, idle, destination, telemetry⟩, h₁, h₂, h₃, h₄, h₅, h₆⟩

theorem Overlaid.again (h : Overlaid env s s') : Overlaid env s' s' where
  streaming := h.streaming.again
  thread := h.thread.again
  requestTimeout := h.requestTimeout.again
  idleTimeout := h.idleTimeout.again
  destination := h.destination.again
  telemetryInterval := h.telemetryInterval.again

/-- Only the six variables matter. -/
theorem withEnvironment_congr (s : Settings) (h : ∀ x : Variable, env' x.key = env x.key) :
    s.withEnvironment env' = s.withEnvironment env := by
  rw [withEnvironment_eq, withEnvironment_eq]
  simp only [override, h]

/-- Settings with an environment on top. There are such settings exactly if each variable that is set
means something; each of them is what its variable means or what it was before, no other variable
matters, and laying the environment on top once more changes nothing. Otherwise the first variable
that means nothing decides the failure, which is one of configuration and names the variable. -/
theorem withEnvironment_told (s : Settings) (env : Environment) :
    ((∃ s', s.withEnvironment env = .ok s') ↔ ∀ x : Variable, x.Valid env) ∧
    (∀ s', s.withEnvironment env = .ok s' ↔ Overlaid env s s') ∧
    (∀ s', s.withEnvironment env = .ok s' → s'.withEnvironment env = .ok s') ∧
    (∀ env' : Environment, (∀ x : Variable, env' x.key = env x.key) →
      s.withEnvironment env' = s.withEnvironment env) ∧
    ∀ fault, s.withEnvironment env = .error fault ↔ ∃ (x : Variable) (v : String),
      x.IsFirstInvalid env ∧
      env x.key = some v ∧ fault = x.fault v ∧
      fault.failure = .configuration (x.key ++ ": " ++ x.complaint v) := by
  refine ⟨?_, fun s' => withEnvironment_eq_ok_iff, fun s' h => ?_,
    fun env' => withEnvironment_congr s, fun fault => ?_⟩
  · simp only [withEnvironment_eq_ok_iff, exists_overlaid_iff]
  · exact withEnvironment_eq_ok_iff.2 (withEnvironment_eq_ok_iff.1 h).again
  · rw [withEnvironment_eq_error_iff, firstFault_iff]
    constructor
    · rintro ⟨before, x, after, v, hall, hbefore, hv, hx, rfl⟩
      exact ⟨x, v, ⟨before, after, hall, hbefore, fun h => hx (h v hv)⟩, hv, rfl,
        x.failure_fault v⟩
    · rintro ⟨x, v, ⟨before, after, hall, hbefore, hx⟩, hv, rfl, _⟩
      refine ⟨before, x, after, v, hall, hbefore, hv, fun hacc => hx fun w hw => ?_, rfl⟩
      exact Option.some.inj (hv.symm.trans hw) ▸ hacc

end Environment

end PromptDesk
