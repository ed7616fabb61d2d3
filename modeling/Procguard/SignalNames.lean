import Procguard.DurationRules
import Procguard.Values

/- The spellings of a signal (`parse_signal` of `signal.rs`). A text is folded: trimmed, with
   its ASCII letters in lower case. What it stands for is said of the folded text alone
   (`SignalText`): the number of a signal, or a name of the table with or without `sig`. The
   reader accepts exactly these, and its three tables (names, numbers, names for display)
   agree. Only the text of an error still shows how the letters were typed. -/
namespace Procguard
open Text

/-! ## Folded texts -/

def lower (cs : List Char) : List Char := cs.map Char.toLower

/-- A text without the white space around it, its ASCII letters in lower case. -/
def folded (s : String) : List Char := lower (trim s)

theorem lower_append (cs ds : List Char) : lower (cs ++ ds) = lower cs ++ lower ds :=
  List.map_append

theorem asciiLower_inj {cs ds : List Char} : asciiLower cs = asciiLower ds ↔ lower cs = lower ds :=
  String.ofList_inj

/-- Only letters change. -/
theorem toLower_eq_iff {c d : Char} (hd : d.isAlpha = false) : c.toLower = d ↔ c = d := by
  have hsame : c.isAlpha = false → c.toLower = c := fun hc =>
    Char.toLower_eq_of_not_isUpper fun hup => by simp [Char.isAlpha, hup] at hc
  constructor
  · intro h
    have hc : c.isAlpha = false := by rw [← Char.isAlpha_toLower_eq_isAlpha, h, hd]
    rw [← h, hsame hc]
  · intro heq
    subst heq
    exact hsame hd

theorem digit?_toLower (c : Char) : digit? c.toLower = digit? c := by
  by_cases hup : c.isUpper = true
  · -- a letter is no digit, in neither case
    have hnone : ∀ d : Char, d.isAlpha = true → digit? d = none := by
      intro d hd
      unfold digit?
      rw [if_neg]
      intro hdigit
      simp only [Char.isAlpha, Char.isUpper, Char.isLower, Char.isDigit, Bool.or_eq_true,
        Bool.and_eq_true, decide_eq_true_eq, UInt32.le_iff_toNat_le, ge_iff_le] at hd hdigit
      simp only [Char.reduceVal, UInt32.reduceToNat] at hd hdigit
      omega
    have halpha : c.isAlpha = true := by simp [Char.isAlpha, hup]
    rw [hnone c halpha, hnone c.toLower (by rw [Char.isAlpha_toLower_eq_isAlpha, halpha])]
  · rw [Char.toLower_eq_of_not_isUpper hup]

theorem readDigits_lower (max : Nat) (cs : List Char) : ∀ acc,
    readDigits max acc (lower cs) = readDigits max acc cs := by
  induction cs with
  | nil => exact fun _ => rfl
  | cons c cs ih =>
    intro acc
    show readDigits max acc (c.toLower :: lower cs) = _
    simp only [readDigits, digit?_toLower, ih]

theorem parseUnsigned_lower (max : Nat) (cs : List Char) :
    parseUnsigned max (lower cs) = parseUnsigned max cs := by
  cases cs with
  | nil => rfl
  | cons c cs =>
    have hread := readDigits_lower max
    by_cases hplus : c = '+'
    · subst hplus
      show (if (lower cs).isEmpty then none else readDigits max 0 (lower cs)) = _
      rw [hread, lower, List.isEmpty_map]
      rfl
    · have hplus' : c.toLower ≠ '+' := mt (toLower_eq_iff rfl).mp hplus
      have hstep : ∀ (d : Char) (ds : List Char), d ≠ '+' →
          parseUnsigned max (d :: ds) = readDigits max 0 (d :: ds) := by
        intro d ds hd
        unfold parseUnsigned
        split
        · next heq => cases heq
        · next heq => exact absurd (List.cons.inj heq).1 hd
        · rfl
      rw [hstep c cs hplus, ← hread]
      exact hstep _ _ hplus'

/-- A number is read alike in both cases. -/
theorem parseSigned_lower (max : Nat) (cs : List Char) :
    parseSigned max (lower cs) = parseSigned max cs := by
  cases cs with
  | nil => rfl
  | cons c cs =>
    by_cases hminus : c = '-'
    · subst hminus
      show (if (lower cs).isEmpty then none
        else (readDigits (max + 1) 0 (lower cs)).map fun n => -(n : Int)) = _
      rw [readDigits_lower, lower, List.isEmpty_map]
      rfl
    · have hminus' : c.toLower ≠ '-' := mt (toLower_eq_iff rfl).mp hminus
      have hstep : ∀ (d : Char) (ds : List Char), d ≠ '-' →
          parseSigned max (d :: ds) = (parseUnsigned max (d :: ds)).map Int.ofNat := by
        intro d ds hd
        unfold parseSigned
        split
        · next heq => exact absurd (List.cons.inj heq).1 hd
        · rfl
      rw [hstep c cs hminus, ← parseUnsigned_lower]
      exact hstep _ _ hminus'

/-! ## The table -/

/-- What a folded text stands for: the number of the signal, or a name of the table, with or
    without `sig` before it. -/
inductive SignalText (text : List Char) (sig : Signal) : Prop
  | number (h : parseSigned i32Max text = some sig.asRaw)
  | name (row : String) (hrow : (row, sig) ∈ signalNames)
      (h : text = lower row.toList ∨ text = "sig".toList ++ lower row.toList)

/-- No name stands for two signals. -/
theorem signalNames_unique : ∀ a ∈ signalNames, ∀ b ∈ signalNames,
    lower a.1.toList = lower b.1.toList → a = b := by
  decide +kernel

/-- No name, with or without `sig`, is a number, and none begins with `sig` itself. -/
theorem signalNames_text : ∀ a ∈ signalNames, parseSigned i32Max (lower a.1.toList) = none ∧
    parseSigned i32Max ("sig".toList ++ lower a.1.toList) = none ∧
    "sig".toList.isPrefixOf (lower a.1.toList) = false := by
  decide +kernel

theorem tryFromRaw_eq_some {n : Int} {sig : Signal} :
    Signal.tryFromRaw n = some sig ↔ n = sig.asRaw := by
  constructor
  · intro h
    unfold Signal.tryFromRaw at h
    split at h <;> cases h <;> rfl
  · intro heq
    subst heq
    exact sig.tryFromRaw_asRaw

/-- The table looked up under a folded name. -/
theorem find_signalNames {key : List Char} {sig : Signal} :
    (∃ row, signalNames.find? (fun r => asciiLower r.1.toList == asciiLower key) = some (row, sig)) ↔
      ∃ row, (row, sig) ∈ signalNames ∧ lower row.toList = lower key := by
  constructor
  · rintro ⟨row, hfind⟩
    have hkey := List.find?_some hfind
    exact ⟨row, List.mem_of_find?_eq_some hfind, asciiLower_inj.mp (beq_iff_eq.mp hkey)⟩
  · rintro ⟨row, hmem, hkey⟩
    have hsome : (signalNames.find? fun r => asciiLower r.1.toList == asciiLower key).isSome := by
      apply List.find?_isSome.mpr
      refine ⟨_, hmem, ?_⟩
      simpa using asciiLower_inj.mpr hkey
    obtain ⟨found, hfind⟩ := Option.isSome_iff_exists.mp hsome
    have hfound := List.find?_some hfind
    have hsame := signalNames_unique _ (List.mem_of_find?_eq_some hfind) _ hmem
      ((asciiLower_inj.mp (beq_iff_eq.mp hfound)).trans hkey.symm)
    exact ⟨row, by rw [hfind, hsame]⟩

/-- The prefix that is stripped is read off the folded text. -/
theorem lower_stripSig (cs : List Char) : lower (stripSig cs) =
    if "sig".toList.isPrefixOf (lower cs) then (lower cs).drop 3 else lower cs := by
  unfold stripSig
  split
  · next s i g name =>
    have hiff : asciiLower [s, i, g] = "sig" ↔
        "sig".toList.isPrefixOf (lower (s :: i :: g :: name)) = true := by
      rw [List.isPrefixOf_iff_prefix, List.prefix_iff_eq_take, ← String.toList_inj, asciiLower,
        String.toList_ofList]
      exact eq_comm
    by_cases hsig : asciiLower [s, i, g] = "sig"
    · rw [if_pos hsig, if_pos (hiff.mp hsig)]
      rfl
    · rw [if_neg hsig, if_neg (mt hiff.mpr hsig)]
  · next hshort =>
    rw [if_neg]
    rw [List.isPrefixOf_iff_prefix]
    intro hprefix
    have hlen : 3 ≤ cs.length := by simpa [lower] using hprefix.length_le
    rcases cs with _ | ⟨s, _ | ⟨i, _ | ⟨g, name⟩⟩⟩
    · exact absurd hlen (by decide)
    · exact absurd hlen (by simp)
    · exact absurd hlen (by simp)
    · exact hshort s i g name rfl

/-! ## The reader -/

section reader
variable {s : String} {sig : Signal}

theorem parseSignal_number {n : Int} (h : parseSigned i32Max (folded s) = some n) :
    parseSignal s =
      okOr (.invalidSignal s!"invalid signal number: {n}") (Signal.tryFromRaw n) := by
  rw [folded, parseSigned_lower] at h
  simp only [parseSignal, h]
  cases Signal.tryFromRaw n <;> rfl

theorem parseSignal_name (h : parseSigned i32Max (folded s) = none) :
    parseSignal s = okOr (.invalidSignal s!"unknown signal: {String.ofList (trim s)}")
      ((signalNames.find? fun row =>
        asciiLower row.1.toList == asciiLower (stripSig (trim s))).map Prod.snd) := by
  rw [folded, parseSigned_lower] at h
  simp only [parseSignal, h]
  cases signalNames.find? fun row => asciiLower row.1.toList == asciiLower (stripSig (trim s)) <;> rfl

/-- A text that is no number stands for what the table says of it without its `sig`. -/
theorem signalText_stripped (h : parseSigned i32Max (folded s) = none) :
    (∃ row, (row, sig) ∈ signalNames ∧ lower row.toList = lower (stripSig (trim s))) ↔
      SignalText (folded s) sig := by
  rw [lower_stripSig]
  show _ ↔ SignalText (folded s) sig
  have hfold : lower (trim s) = folded s := rfl
  rw [hfold]
  by_cases hsig : "sig".toList.isPrefixOf (folded s) = true
  · rw [if_pos hsig]
    obtain ⟨name, hname⟩ := List.isPrefixOf_iff_prefix.mp hsig
    have hdrop : (folded s).drop 3 = name := by rw [← hname]; rfl
    rw [hdrop]
    constructor
    · rintro ⟨row, hrow, hkey⟩
      exact .name row hrow (.inr (by rw [hkey, hname]))
    · rintro (hnum | ⟨row, hrow, htext | htext⟩)
      · rw [h] at hnum
        cases hnum
      · rw [htext, (signalNames_text _ hrow).2.2] at hsig
        cases hsig
      · exact ⟨row, hrow, List.append_cancel_left (htext.symm.trans hname.symm)⟩
  · rw [if_neg hsig]
    constructor
    · rintro ⟨row, hrow, hkey⟩
      exact .name row hrow (.inl hkey.symm)
    · rintro (hnum | ⟨row, hrow, htext | htext⟩)
      · rw [h] at hnum
        cases hnum
      · exact ⟨row, hrow, htext.symm⟩
      · exact absurd (List.isPrefixOf_iff_prefix.mpr ⟨_, htext.symm⟩) hsig

/-- A text that is a number stands for the signal with that number only. -/
theorem signalText_number {n : Int} (h : parseSigned i32Max (folded s) = some n) :
    SignalText (folded s) sig ↔ n = sig.asRaw := by
  constructor
  · rintro (hnum | ⟨row, hrow, htext | htext⟩)
    · exact Option.some.inj (h.symm.trans hnum)
    · rw [htext, (signalNames_text _ hrow).1] at h
      cases h
    · rw [htext, (signalNames_text _ hrow).2.1] at h
      cases h
  · intro heq
    subst heq
    exact .number h

/-- A signal is read exactly where the folded text stands for it. -/
theorem parseSignal_eq_ok : parseSignal s = .ok sig ↔ SignalText (folded s) sig := by
  cases hnum : parseSigned i32Max (folded s) with
  | some n => rw [parseSignal_number hnum, okOr_eq_ok, tryFromRaw_eq_some, signalText_number hnum]
  | none =>
    rw [parseSignal_name hnum, okOr_eq_ok, ← signalText_stripped hnum, ← find_signalNames]
    simp

/-- The reading without the text of its error. -/
theorem parseSignal_toOption {s t : String}
    (h : ∀ sig, SignalText (folded s) sig ↔ SignalText (folded t) sig) :
    (parseSignal s).toOption = (parseSignal t).toOption := by
  have hread : ∀ (u : String) (sig : Signal),
      (parseSignal u).toOption = some sig ↔ SignalText (folded u) sig := by
    intro u sig
    rw [← parseSignal_eq_ok]
    cases parseSignal u <;> simp [Except.toOption]
  apply Option.ext
  intro sig
  rw [hread, hread, h]

end reader

/-- The name for display is in the table, after `SIG`. -/
theorem signalText_display (sig : Signal) : SignalText (folded sig.name) sig := by
  have hrow : (String.ofList (sig.name.toList.drop 3), sig) ∈ signalNames ∧
      folded sig.name = "sig".toList ++ lower (String.ofList (sig.name.toList.drop 3)).toList := by
    cases sig <;> decide +kernel
  exact .name _ hrow.1 (.inr hrow.2)

theorem signalText_raw (sig : Signal) : SignalText (folded (toString sig.asRaw)) sig := by
  apply SignalText.number
  cases sig <;> rfl

/-! ## Uniform reading -/

/-- The same signal, or errors whose texts differ in the case of letters at most. -/
def SameReading : Except TimeoutError Signal → Except TimeoutError Signal → Prop
  | .ok sig, .ok sig' => sig = sig'
  | .error (.invalidSignal text), .error (.invalidSignal text') =>
    lower text.toList = lower text'.toList
  | _, _ => False

theorem SameReading.okOr {m m' : String} (x : Option Signal)
    (h : lower m.toList = lower m'.toList) :
    SameReading (okOr (.invalidSignal m) x) (okOr (.invalidSignal m') x) := by
  cases x with
  | some sig => exact rfl
  | none => exact h

theorem parseSignal_folded {s t : String} (h : folded s = folded t) :
    SameReading (parseSignal s) (parseSignal t) := by
  cases hnum : parseSigned i32Max (folded s) with
  | some n =>
    rw [parseSignal_number hnum, parseSignal_number (h ▸ hnum)]
    exact .okOr _ rfl
  | none =>
    rw [parseSignal_name hnum, parseSignal_name (h ▸ hnum)]
    have hkey : asciiLower (stripSig (trim s)) = asciiLower (stripSig (trim t)) := by
      rw [asciiLower_inj, lower_stripSig, lower_stripSig]
      show (if "sig".toList.isPrefixOf (folded s) then (folded s).drop 3 else folded s) = _
      rw [h]
      rfl
    rw [hkey]
    apply SameReading.okOr
    have htext : ∀ cs : List Char, lower (s!"unknown signal: {String.ofList cs}").toList =
        lower "unknown signal: ".toList ++ lower cs := by
      intro cs
      rw [← lower_append]
      simp [toString]
    rw [htext, htext]
    exact congrArg _ h

/-- What has no white space around it still has none behind a letter. -/
theorem folded_sig {n : String} (h : trim n = n.toList) :
    folded ("SIG" ++ n) = "sig".toList ++ folded n := by
  have hright : n.toList.rdropWhile isWhite = n.toList := by
    rw [← h, trim]
    exact List.rdropWhile_idempotent _ _
  have hlast : ∀ c ∈ ("SIG".toList ++ n.toList).getLast?, isWhite c = false := by
    intro c hc
    by_cases hnil : n.toList = []
    · rw [hnil] at hc
      cases hc
      rfl
    · rw [List.getLast?_append, List.getLast?_eq_getLast_of_ne_nil hnil, Option.some_or] at hc
      cases hc
      simpa using List.rdropWhile_eq_self_iff.mp hright hnil
  have htrim : trim ("SIG" ++ n) = "SIG".toList ++ n.toList := by
    have hdrop : ("SIG" ++ n).toList.dropWhile isWhite = "SIG".toList ++ n.toList := by
      rw [String.toList_append]
      rfl
    have hkeep := (rsplit_append (b := []) hlast (fun _ hc => absurd hc List.not_mem_nil)).1
    rw [List.append_nil] at hkeep
    rw [trim, hdrop, hkeep]
  rw [folded, htrim, lower_append, folded, h]
  rfl

theorem sig_optional {n : String} (hnum : parseSigned i32Max n.toList = none)
    (htrim : trim n = n.toList) (hsig : ¬ "sig".toList <+: folded n) :
    (parseSignal ("SIG" ++ n)).toOption = (parseSignal n).toOption := by
  apply parseSignal_toOption
  intro sig
  rw [folded_sig htrim]
  constructor
  · rintro (h | ⟨row, hrow, htext | htext⟩)
    · cases h
    · have hno := (signalNames_text _ hrow).2.2
      rw [← htext, List.isPrefixOf_iff_prefix.mpr (List.prefix_append _ _)] at hno
      cases hno
    · exact .name row hrow (.inl (List.append_cancel_left htext))
  · rintro (h | ⟨row, hrow, htext | htext⟩)
    · rw [folded, htrim, parseSigned_lower, hnum] at h
      cases h
    · exact .name row hrow (.inr (by rw [htext]))
    · exact absurd ⟨_, htext.symm⟩ hsig

/-- **Signal names are read uniformly**: what a text stands for depends on its folded form
    alone, up to the letters an error quotes; a name is read alike with and without SIG unless
    it begins so itself, in any case; only numbers and names of the table are accepted; and
    both the name for display and the number of an accepted signal are read back to it. -/
theorem signal_names_uniform :
    (∀ s t, folded s = folded t → SameReading (parseSignal s) (parseSignal t)) ∧
    (∀ n : String, parseSigned i32Max n.toList = none → trim n = n.toList →
      ¬ "sig".toList <+: folded n →
      (parseSignal ("SIG" ++ n)).toOption = (parseSignal n).toOption) ∧
    (∀ s sig, parseSignal s = .ok sig ↔ SignalText (folded s) sig) ∧
    ∀ s sig, parseSignal s = .ok sig →
      parseSignal sig.name = .ok sig ∧ parseSignal (toString sig.asRaw) = .ok sig := by
  refine ⟨fun s t h => parseSignal_folded h, fun n hnum htrim hsig => sig_optional hnum htrim hsig,
    fun s sig => parseSignal_eq_ok, fun s sig _ => ⟨?_, ?_⟩⟩
  · exact parseSignal_eq_ok.mpr (signalText_display sig)
  · exact parseSignal_eq_ok.mpr (signalText_raw sig)

/-- An error shows the letters as they were typed, and SIG is stripped once, in any case. -/
theorem signal_names_typed :
    (¬ ∀ s t, folded s = folded t → parseSignal s = parseSignal t) ∧
    ¬ ∀ n : String, parseSigned i32Max n.toList = none → trim n = n.toList →
      ¬ "SIG".toList <+: n.toList →
      (parseSignal ("SIG" ++ n)).toOption = (parseSignal n).toOption := by
  constructor
  · intro h
    exact absurd (h "FOO" "foo" (by decide +kernel)) (by decide +kernel)
  · intro h
    exact absurd (h "sigTERM" (by decide +kernel) (by decide +kernel) (by decide +kernel))
      (by decide +kernel)

end Procguard
