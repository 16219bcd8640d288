import WorkloadIdentity.Proofs.Config.Grammar

/-!
# The grammar of credential sources

Each source is read exactly if it is of its shape, and the value of a member decides nothing unless
the shape is chosen by its name: the first of four names that the object has.
-/

set_option autoImplicit false

namespace WorkloadIdentity.Grammar

theorem shaped_ok {α β : Type} {x : Option α} {f : α → Checked β} {b : β} :
    (shaped x >>= f) = .ok b ↔ ∃ a, x = some a ∧ f a = .ok b := by
  cases x with
  | none => simp [shaped, bind, Except.bind]
  | some a => simp [shaped, bind, Except.bind]

theorem raw_format_iff {value : Json} {raw : String × Option String} :
    TokenFormat.raw? value = some raw ↔ ∃ get, Spells ["type", "subject_token_field_name"] value get ∧
      get "type" = some (.string raw.1) ∧ Maybe Text (get "subject_token_field_name") raw.2 := by
  refine record_iff (fun get (raw : String × Option String) =>
    get "type" = some (.string raw.1) ∧ Maybe Text (get "subject_token_field_name") raw.2)
    fun record => ?_
  simp only [Option.bind_eq_bind, Option.bind_eq_some_iff, text_iff, optional_text_iff,
    Option.pure_def, Option.some.injEq]
  constructor
  · rintro ⟨kind, hk, member, hm, rfl⟩
    exact ⟨hk, hm⟩
  · rintro ⟨hk, hm⟩
    exact ⟨_, hk, _, hm, rfl⟩

theorem check_format_iff {raw : String × Option String} {format : TokenFormat} :
    TokenFormat.check raw = .ok format ↔ (raw.1 = "text" ∧ format = .text) ∨
      ∃ member, raw = ("json", some member) ∧ member ≠ "" ∧ format = .json member := by
  constructor
  · intro h
    unfold TokenFormat.check at h
    split at h
    · cases h
      exact .inl ⟨rfl, rfl⟩
    · split at h
      · cases h
      · rename_i member proper
        cases h
        exact .inr ⟨member, rfl, fun h => proper (String.isEmpty_iff.mpr h), rfl⟩
    · cases h
    · cases h
  · obtain ⟨kind, field⟩ := raw
    rintro (⟨rfl, rfl⟩ | ⟨member, ⟨rfl, rfl⟩, proper, rfl⟩)
    · rfl
    · exact if_neg fun h => proper (String.isEmpty_iff.mp h)

theorem format_iff {value : Json} {format : TokenFormat} :
    (∃ raw, TokenFormat.raw? value = some raw ∧ TokenFormat.check raw = .ok format) ↔
      Format value format := by
  simp only [raw_format_iff, check_format_iff]
  constructor
  · rintro ⟨⟨kind, member⟩, ⟨get, spelled, hk, hm⟩, ⟨hkind, rfl⟩ | ⟨member, ⟨⟩, proper, rfl⟩⟩
    · exact .text spelled (hkind ▸ hk) hm
    · generalize hg : get "subject_token_field_name" = field at hm
      cases hm with
      | given reads => exact .json spelled hk (hg.trans (congrArg some reads)) proper
  · intro h
    cases h with
    | text spelled kind unused => exact ⟨("text", _), ⟨_, spelled, kind, unused⟩, .inl ⟨rfl, rfl⟩⟩
    | json spelled kind named proper =>
      refine ⟨("json", some _), ⟨_, spelled, kind, ?_⟩, .inr ⟨_, rfl, proper, rfl⟩⟩
      rw [named]
      exact .given rfl

theorem optional_format_iff {record : Record} {format : TokenFormat} :
    (∃ raw, record.optional TokenFormat.raw? "format" = some raw ∧
      TokenFormat.checkOptional raw = .ok format) ↔
    ∃ given, Maybe Format (record.field? "format") given ∧ format = given.getD .text := by
  have reads : ∀ raw, record.optional TokenFormat.raw? "format" = some raw ↔
      Maybe (fun value raw => TokenFormat.raw? value = some raw) (record.field? "format") raw :=
    fun _ => optional_iff (fun _ _ => Iff.rfl) nofun
  simp only [reads]
  generalize record.field? "format" = field
  constructor
  · rintro ⟨raw, held, checked⟩
    cases held with
    | absent =>
      cases checked
      exact ⟨none, .absent, rfl⟩
    | null =>
      cases checked
      exact ⟨none, .null, rfl⟩
    | given read => exact ⟨some format, .given (format_iff.mp ⟨_, read, checked⟩), rfl⟩
  · rintro ⟨given, held, rfl⟩
    cases held with
    | absent => exact ⟨none, .absent, rfl⟩
    | null => exact ⟨none, .null, rfl⟩
    | given reads =>
      obtain ⟨raw, read, checked⟩ := format_iff.mpr reads
      exact ⟨some raw, .given read, checked⟩

theorem digits_grow (digits : List Char) (start : ℕ) :
    start ≤ Nat.ofDigitChars 10 digits start := by
  induction digits generalizing start with
  | nil => exact Nat.le_refl start
  | cons c cs ih =>
    rw [Nat.ofDigitChars_cons]
    have := ih (10 * start + (c.toNat - '0'.toNat))
    omega

theorem numeral_one_iff {digits : List Char} (decimal : digits.all Char.isDigit = true) :
    Nat.ofDigitChars 10 digits 0 = 1 ↔ ∃ zeros, digits = List.replicate zeros '0' ++ ['1'] := by
  induction digits with
  | nil => simp [Nat.ofDigitChars]
  | cons c cs ih =>
    rw [List.all_cons, Bool.and_eq_true, Char.isDigit_iff_toNat] at decimal
    obtain ⟨⟨low, -⟩, decimal⟩ := decimal
    rw [Nat.ofDigitChars_cons]
    by_cases zero : c = '0'
    · subst zero
      rw [show 10 * 0 + ('0'.toNat - '0'.toNat) = 0 from rfl, ih decimal]
      constructor
      · rintro ⟨zeros, rfl⟩
        exact ⟨zeros + 1, rfl⟩
      · rintro ⟨zeros, h⟩
        cases zeros with
        | zero => simp at h
        | succ zeros => exact ⟨zeros, (List.cons_eq_cons.mp h).2⟩
    · have nonzero : c.toNat ≠ '0'.toNat := fun h => zero (Char.toNat_inj.mp h)
      have ends : Nat.ofDigitChars 10 cs (10 * 0 + (c.toNat - '0'.toNat)) = 1 ↔
          cs = [] ∧ c = '1' := by
        cases cs with
        | nil =>
          have one : '1'.toNat = '0'.toNat + 1 := rfl
          simp only [Nat.ofDigitChars, List.foldl_nil, ← Char.toNat_inj, true_and]
          omega
        | cons d ds =>
          have := digits_grow ds (10 * (10 * 0 + (c.toNat - '0'.toNat)) + (d.toNat - '0'.toNat))
          rw [Nat.ofDigitChars_cons]
          simp only [reduceCtorEq, false_and, iff_false]
          omega
      rw [ends]
      constructor
      · rintro ⟨rfl, rfl⟩
        exact ⟨0, rfl⟩
      · rintro ⟨zeros, h⟩
        cases zeros with
        | zero =>
          obtain ⟨rfl, rfl⟩ := List.cons_eq_cons.mp h
          exact ⟨rfl, rfl⟩
        | succ zeros => exact absurd (List.cons_eq_cons.mp h).1 zero

theorem supported_iff {version : List Char} :
    AwsSource.isSupported version = true ↔ ∃ plus zeros, (plus = [] ∨ plus = ['+']) ∧
      version = plus ++ (List.replicate zeros '0' ++ ['1']) := by
  have plain : ∀ zeros, (List.replicate zeros '0' ++ ['1']).all Char.isDigit = true := by
    intro zeros
    simp
  have read : ∀ digits : List Char, (!digits.isEmpty && digits.all Char.isDigit &&
      Nat.ofDigitChars 10 digits 0 == 1) = true ↔
        ∃ zeros, digits = List.replicate zeros '0' ++ ['1'] := by
    intro digits
    simp only [Bool.and_eq_true, beq_iff_eq]
    constructor
    · rintro ⟨⟨-, decimal⟩, one⟩
      exact (numeral_one_iff decimal).mp one
    · rintro ⟨zeros, rfl⟩
      exact ⟨⟨by simp, plain zeros⟩, (numeral_one_iff (plain zeros)).mpr ⟨zeros, rfl⟩⟩
  unfold AwsSource.isSupported
  simp only [read]
  constructor
  · rintro ⟨zeros, h⟩
    split at h
    · exact ⟨['+'], zeros, .inr rfl, by rw [h]; rfl⟩
    · exact ⟨[], zeros, .inl rfl, h⟩
  · rintro ⟨plus, zeros, rfl | rfl, rfl⟩
    · refine ⟨zeros, ?_⟩
      cases zeros <;> rfl
    · exact ⟨zeros, rfl⟩

theorem check_aws_iff {raw s : AwsSource} :
    AwsSource.check raw = .ok s ↔ FirstVersion raw.environmentId ∧ s = raw := by
  unfold AwsSource.check AwsSource.version? FirstVersion
  split
  · rename_i other
    split at other
    · cases other
    · rename_i unnamed
      simp only [reduceCtorEq, false_iff, not_and]
      rintro ⟨plus, zeros, -, h⟩
      exact absurd h (unnamed _)
  · rename_i version named
    split at named
    · rename_i found
      cases named
      have same : (∃ plus zeros, (plus = [] ∨ plus = ['+']) ∧ raw.environmentId.toList =
            ['a', 'w', 's'] ++ (plus ++ (List.replicate zeros '0' ++ ['1']))) ↔
          AwsSource.isSupported version = true := by
        rw [supported_iff, found]
        simp
      rw [same]
      by_cases h : AwsSource.isSupported version = true <;> simp [h, eq_comm]
    · cases named

theorem allBlank_iff {text : String} :
    Blank.allBlank text = false ↔ ∃ c ∈ text.toList, Blank.isBlank c = false := by
  rw [Blank.allBlank, List.all_eq_false]
  simp

theorem raw_executable_iff {value : Json} {s : ExecutableSource} :
    ExecutableSource.raw? value = some s ↔
      ∃ get, Spells ["command", "timeout_millis", "output_file"] value get ∧
        (get "command" = some (.string s.command) ∧
          Maybe (Natural 32) (get "timeout_millis") s.timeout ∧
          Maybe Text (get "output_file") s.outputFile) := by
  refine record_iff (fun get (s : ExecutableSource) =>
    get "command" = some (.string s.command) ∧ Maybe (Natural 32) (get "timeout_millis") s.timeout ∧
      Maybe Text (get "output_file") s.outputFile) fun record => ?_
  have times : ∀ name t, record.optional (Record.natural? 32) name = some t ↔
      Maybe (Natural 32) (record.field? name) t :=
    fun _ _ => optional_iff (fun _ _ => natural_iff) fun _ => nofun
  simp only [Option.bind_eq_bind, Option.bind_eq_some_iff, text_iff, optional_text_iff, times,
    Option.pure_def, Option.some.injEq]
  constructor
  · rintro ⟨command, hc, timeout, ht, output, ho, rfl⟩
    exact ⟨hc, ht, ho⟩
  · rintro ⟨hc, ht, ho⟩
    exact ⟨_, hc, _, ht, _, ho, rfl⟩

theorem check_executable_iff {raw s : ExecutableSource} :
    ExecutableSource.check raw = .ok s ↔ (∃ c ∈ raw.command.toList, Blank.isBlank c = false) ∧
      (∀ t ∈ raw.timeout, 5000 ≤ t ∧ t ≤ 120000) ∧ s = raw := by
  rw [← allBlank_iff]
  unfold ExecutableSource.check
  rcases Blank.allBlank raw.command with _ | _
  · rcases ht : raw.timeout with _ | t
    · simp [eq_comm]
    · simp only [Bool.false_eq_true, if_false, ExecutableSource.minTimeout,
        ExecutableSource.maxTimeout, Option.mem_def, Option.some.injEq, true_and]
      by_cases within : 5000 ≤ t ∧ t ≤ 120000
      · simp [within, eq_comm]
      · simp [within]
  · simp

theorem raw_aws_iff {members : List (String × Json)} {s : AwsSource} :
    AwsSource.raw? (.object members) = some s ↔
      Members.get? members "environment_id" = some (.string s.environmentId) ∧
      Maybe Text (Members.get? members "region_url") s.regionUrl ∧
      Maybe Text (Members.get? members "url") s.url ∧
      Members.get? members "regional_cred_verification_url" = some (.string s.verificationUrl) ∧
      Maybe Text (Members.get? members "imdsv2_session_token_url") s.sessionTokenUrl := by
  unfold AwsSource.raw? Json.record?
  simp (disch := decide) only [Option.bind_eq_bind, Option.bind_some, Option.bind_eq_some_iff,
    text_iff, optional_text_iff, Configuration.field_known, Option.pure_def, Option.some.injEq]
  constructor
  · rintro ⟨id, hi, region, hr, url, hu, verification, hv, session, hs, rfl⟩
    exact ⟨hi, hr, hu, hv, hs⟩
  · rintro ⟨hi, hr, hu, hv, hs⟩
    exact ⟨_, hi, _, hr, _, hu, _, hv, _, hs, rfl⟩

theorem aws_iff {members : List (String × Json)} {s : AwsSource} :
    AwsSource.parse (.object members) = .ok s ↔ Aws (Members.get? members) s := by
  unfold AwsSource.parse
  simp only [shaped_ok, raw_aws_iff, check_aws_iff]
  constructor
  · rintro ⟨raw, ⟨hi, hr, hu, hv, hs⟩, version, rfl⟩
    exact ⟨hi, version, hr, hu, hv, hs⟩
  · rintro ⟨hi, version, hr, hu, hv, hs⟩
    exact ⟨s, ⟨hi, hr, hu, hv, hs⟩, version, rfl⟩

theorem executable_iff {members : List (String × Json)} {s : ExecutableSource} :
    ExecutableSource.parse (.object members) = .ok s ↔ ∃ value get,
      Members.get? members "executable" = some value ∧
        Spells ["command", "timeout_millis", "output_file"] value get ∧ Executable get s := by
  unfold ExecutableSource.parse Json.record? Record.required
  simp (disch := decide) only [shaped_ok, Option.bind_eq_bind, Option.bind_some,
    Option.bind_eq_some_iff, Configuration.field_known, raw_executable_iff, check_executable_iff]
  constructor
  · rintro ⟨raw, ⟨value, held, get, spelled, hc, ht, ho⟩, words, within, rfl⟩
    exact ⟨value, get, held, spelled, hc, words, ht, within, ho⟩
  · rintro ⟨value, get, held, spelled, hc, words, ht, within, ho⟩
    exact ⟨s, ⟨value, held, get, spelled, hc, ht, ho⟩, words, within, rfl⟩

theorem formatted_iff {γ : Type} {build : TokenFormat → γ} {format : Option (String × Option String)}
    {s : γ} : (TokenFormat.checkOptional format >>= fun f => pure (build f)) = (.ok s : Checked γ) ↔
      ∃ f, TokenFormat.checkOptional format = .ok f ∧ s = build f := by
  cases TokenFormat.checkOptional format <;> simp [bind, Except.bind, pure, Except.pure, eq_comm]

theorem file_iff {members : List (String × Json)} {s : FileSource} :
    FileSource.parse (.object members) = .ok s ↔ File (Members.get? members) s := by
  have format := @optional_format_iff (members.filter fun m => ["file", "format"].contains m.1)
  rw [Configuration.field_known members (by decide)] at format
  unfold FileSource.parse Json.record?
  simp (disch := decide) only [shaped_ok, Option.bind_eq_bind, Option.bind_some,
    Option.bind_eq_some_iff, text_iff, Configuration.field_known, Option.pure_def,
    Option.some.injEq, formatted_iff]
  constructor
  · rintro ⟨_, ⟨file, hf, raw, hr, rfl⟩, checked, hc, rfl⟩
    exact ⟨hf, format.mp ⟨raw, hr, hc⟩⟩
  · rintro ⟨hf, hformat⟩
    obtain ⟨raw, hr, hc⟩ := format.mpr hformat
    exact ⟨_, ⟨_, hf, raw, hr, rfl⟩, _, hc, rfl⟩

theorem url_iff {members : List (String × Json)} {s : UrlSource} :
    UrlSource.parse (.object members) = .ok s ↔ Web (Members.get? members) s := by
  have format := @optional_format_iff
    (members.filter fun m => ["url", "headers", "format"].contains m.1)
  rw [Configuration.field_known members (by decide)] at format
  have headers : ∀ (record : Record) name texts, record.optional Record.textMap? name = some texts ↔
      Maybe TextMap (record.field? name) texts :=
    fun _ _ _ => optional_iff (fun _ _ => text_map_iff) fun _ => nofun
  unfold UrlSource.parse Json.record?
  simp (disch := decide) only [shaped_ok, Option.bind_eq_bind, Option.bind_some,
    Option.bind_eq_some_iff, text_iff, headers, Configuration.field_known, Option.pure_def,
    Option.some.injEq, formatted_iff]
  constructor
  · rintro ⟨_, ⟨url, hu, texts, ht, raw, hr, rfl⟩, checked, hc, rfl⟩
    exact ⟨hu, ⟨texts, ht, rfl⟩, format.mp ⟨raw, hr, hc⟩⟩
  · rintro ⟨hu, ⟨texts, ht, given⟩, hformat⟩
    obtain ⟨raw, hr, hc⟩ := format.mpr hformat
    exact ⟨_, ⟨_, hu, texts, ht, raw, hr, rfl⟩, _, hc, by rw [← given]⟩

theorem present {members : List (String × Json)} {name : String} {value : Json}
    (h : Members.get? members name = some value) : Members.contains members name = true := by
  rw [Members.contains, h]
  rfl

theorem absent {members : List (String × Json)} {name : String} :
    Members.contains members name = false ↔ Members.get? members name = none := by
  rw [Members.contains, Option.isSome_eq_false_iff, Option.isNone_iff_eq_none]

theorem map_ok {α β ε : Type} {f : α → β} {x : Except ε α} {b : β} :
    x.map f = .ok b ↔ ∃ a, x = .ok a ∧ b = f a := by
  cases x <;> simp [Except.map, eq_comm]

/-- The names are looked for in their order, and what stands under the others does not matter. -/
theorem source_iff {value : Json} {source : CredentialSource} :
    CredentialSource.parse value = .ok source ↔ Source value source := by
  constructor
  · intro h
    cases value with
    | object members =>
      unfold CredentialSource.parse at h
      dsimp only at h
      split at h
      · obtain ⟨s, parsed, rfl⟩ := map_ok.mp h
        exact .aws (aws_iff.mp parsed)
      rename_i noAws
      have noAws := absent.mp (Bool.eq_false_iff.mpr noAws)
      split at h
      · obtain ⟨s, parsed, rfl⟩ := map_ok.mp h
        obtain ⟨value, get, held, spelled, fits⟩ := executable_iff.mp parsed
        exact .executable noAws held spelled fits
      rename_i noCommand
      have noCommand := absent.mp (Bool.eq_false_iff.mpr noCommand)
      split at h
      · obtain ⟨s, parsed, rfl⟩ := map_ok.mp h
        exact .file (by simp [noAws, noCommand]) (file_iff.mp parsed)
      rename_i noFile
      have noFile := absent.mp (Bool.eq_false_iff.mpr noFile)
      split at h
      · obtain ⟨s, parsed, rfl⟩ := map_ok.mp h
        exact .url (by simp [noAws, noCommand, noFile]) (url_iff.mp parsed)
      · cases h
    | _ => cases h
  · intro h
    unfold CredentialSource.parse
    cases h with
    | aws fits =>
      dsimp only
      rw [present fits.environment, if_pos rfl, aws_iff.mpr fits]
      rfl
    | executable first held spelled fits =>
      have parsed := executable_iff.mpr ⟨_, _, held, spelled, fits⟩
      simp only [absent.mpr first, present held, parsed, Bool.false_eq_true, if_false, if_true]
      rfl
    | file first fits =>
      have noAws := absent.mpr (first "environment_id" (by decide))
      have noCommand := absent.mpr (first "executable" (by decide))
      simp only [noAws, noCommand, present fits.file, file_iff.mpr fits, Bool.false_eq_true,
        if_false, if_true]
      rfl
    | url first fits =>
      have noAws := absent.mpr (first "environment_id" (by decide))
      have noCommand := absent.mpr (first "executable" (by decide))
      have noFile := absent.mpr (first "file" (by decide))
      simp only [noAws, noCommand, noFile, present fits.url, url_iff.mpr fits, Bool.false_eq_true,
        if_false, if_true]
      rfl

end WorkloadIdentity.Grammar
