import Procguard.EnvFallback

/- One option, several spellings. A value option is written `--opt v` or `--opt=v`,
   a short option alone or in a cluster. Each spelling is read on its own, down to
   what `readOption` makes of it, and two spellings agree because that is the same;
   what comes before only has to leave the parser where it reads options. -/
namespace Procguard
open Text

/-- After `pre` the parser still reads options: no option waits for its value, and
    neither the command nor a separator has come. -/
def OptionPosition (pre : List String) (r : Args) : Prop :=
  parseTokens { rest := pre } = .ok ⟨r, false, []⟩ ∧ r.command = none

variable {pre post rest : List String} {r : Args} {arg v : String} {o : ValueOpt}

theorem OptionPosition.parse (h : OptionPosition pre r) (more : List String) :
    parseTokens { rest := pre ++ more } = parseTokens ⟨r, false, more⟩ := by
  have happ := parseTokens_append h.1 more
  exact happ

/-- Where options are read, a token goes to the `match`. -/
theorem parseTokens_option (hcmd : r.command = none) (harg : arg ≠ "--") :
    parseTokens ⟨r, false, arg :: rest⟩ =
      (readOption r arg rest).bind fun p => parseTokens ⟨p.1, false, p.2⟩ := by
  rw [parseTokens_cons rfl]
  unfold parseToken
  simp only [Bool.false_eq_true, if_false, harg, hcmd, Option.isSome_none]
  cases readOption r arg rest <;> rfl

/-- The check that follows the loop sees only what the loop returns. -/
theorem parseFromSlice_congr {argv argv' : List String}
    (h : parseTokens { rest := argv } = parseTokens { rest := argv' }) :
    parseFromSlice argv = parseFromSlice argv' := by
  unfold parseFromSlice
  rw [h]

/-! ## The two ways to write a long option -/

def ValueOpt.longName : ValueOpt → String
  | .signal => "--signal"
  | .killAfter => "--kill-after"
  | .timeoutExitCode => "--timeout-exit-code"
  | .onTimeout => "--on-timeout"
  | .onTimeoutLimit => "--on-timeout-limit"
  | .confine => "--confine"
  | .waitForFile => "--wait-for-file"
  | .waitForFileTimeout => "--wait-for-file-timeout"
  | .retry => "--retry"
  | .retryDelay => "--retry-delay"
  | .retryBackoff => "--retry-backoff"
  | .heartbeat => "--heartbeat"
  | .stdinTimeout => "--stdin-timeout"
  | .memLimit => "--mem-limit"
  | .cpuTime => "--cpu-time"
  | .cpuPercent => "--cpu-percent"

/-- The arm of each option, which cuts at the length of what it looks for. -/
theorem inlineArms_name (o : ValueOpt) :
    (o.longName ++ "=", (o.longName ++ "=").toList.length, o) ∈ inlineArms := by
  cases o <;> decide +kernel

/-- No arm looks for the beginning of what another looks for. -/
theorem inlineArms_apart : ∀ arm ∈ inlineArms, ∀ arm' ∈ inlineArms,
    startsWith arm.1 arm'.1 = true → arm' = arm := by decide +kernel

theorem exactArms_apart : ∀ arm ∈ exactArms, ∀ arm' ∈ inlineArms,
    startsWith arm.1 arm'.1 = false := by decide +kernel

theorem find_only {α : Type} {p : α → Bool} {l : List α} {a : α} (ha : a ∈ l) (hp : p a = true)
    (honly : ∀ b ∈ l, p b = true → b = a) : l.find? p = some a := by
  cases hf : l.find? p with
  | none => exact absurd hp (List.find?_eq_none.mp hf a ha)
  | some b => rw [honly b (List.mem_of_find?_eq_some hf) (List.find?_some hf)]

theorem startsWith_append (s v : String) : startsWith (s ++ v) s = true := by
  rw [startsWith_iff, String.toList_append]
  exact List.prefix_append _ _

theorem dropChars_append (s v : String) : dropChars (s ++ v) s.toList.length = v := by
  unfold dropChars
  rw [String.toList_append, List.drop_left, String.ofList_toList]

/-- `--opt=v` is cut right after its `=`, whatever `v` holds. -/
theorem classify_inline (o : ValueOpt) (v : String) :
    classify (o.longName ++ "=" ++ v) = .inline o v := by
  have hmem := inlineArms_name o
  have hstart := startsWith_append (o.longName ++ "=") v
  have hexact : exactArms.lookup (o.longName ++ "=" ++ v) = none := by
    rw [List.lookup_eq_none_iff]
    intro arm harm
    rw [bne_iff_ne]
    intro hs
    have hnot := exactArms_apart arm harm _ hmem
    rw [← hs, hstart] at hnot
    cases hnot
  have hfind : inlineArms.find? (fun arm => startsWith (o.longName ++ "=" ++ v) arm.1) =
      some (o.longName ++ "=", (o.longName ++ "=").toList.length, o) := by
    apply find_only hmem hstart
    intro arm harm hs
    -- both are the beginning of one text, so one is the beginning of the other
    rcases List.prefix_or_prefix_of_prefix (startsWith_iff.mp hs) (startsWith_iff.mp hstart) with
      hle | hle
    · exact inlineArms_apart _ hmem arm harm (startsWith_iff.mpr hle)
    · exact (inlineArms_apart arm harm _ hmem (startsWith_iff.mpr hle)).symm
  unfold classify
  rw [hexact, hfind]
  simp only [dropChars_append]

theorem classify_longName (o : ValueOpt) : ∃ missing, classify o.longName = .value o missing := by
  cases o <;> exact ⟨_, rfl⟩

theorem longName_ne_separator (o : ValueOpt) : o.longName ≠ "--" := by
  cases o <;> decide

theorem inline_ne_separator (o : ValueOpt) (v : String) : o.longName ++ "=" ++ v ≠ "--" := by
  intro h
  have hword := classify_inline o v
  rw [h] at hword
  cases hword

/-- **Both ways to write a long option with its value are read alike.** -/
theorem long_forms_agree (hpos : ∃ r, OptionPosition pre r) (o : ValueOpt) (v : String)
    (post : List String) :
    parseFromSlice (pre ++ [o.longName, v] ++ post) =
      parseFromSlice (pre ++ [o.longName ++ "=" ++ v] ++ post) := by
  obtain ⟨r, hr⟩ := hpos
  obtain ⟨missing, hword⟩ := classify_longName o
  apply parseFromSlice_congr
  have hsep : readOption r o.longName (v :: post) = (o.set r v).map fun r' => (r', post) := by
    unfold readOption
    rw [hword]
    rfl
  have heq : readOption r (o.longName ++ "=" ++ v) post = (o.set r v).map fun r' => (r', post) := by
    unfold readOption
    rw [classify_inline]
  calc parseTokens { rest := pre ++ [o.longName, v] ++ post }
      = parseTokens ⟨r, false, o.longName :: v :: post⟩ := by
        rw [List.append_assoc]
        exact hr.parse _
    _ = parseTokens ⟨r, false, (o.longName ++ "=" ++ v) :: post⟩ := by
        rw [parseTokens_option hr.2 (longName_ne_separator o), hsep,
          parseTokens_option hr.2 (inline_ne_separator o v), heq]
    _ = parseTokens { rest := pre ++ [o.longName ++ "=" ++ v] ++ post } := by
        rw [List.append_assoc]
        exact (hr.parse _).symm

theorem long_forms_agree_limit :
    parseFromSlice (["-v", "5s"] ++ ["--on-timeout-limit", "-=2s"] ++ ["sleep", "9"]) =
      parseFromSlice (["-v", "5s"] ++ ["--on-timeout-limit=-=2s"] ++ ["sleep", "9"]) :=
  long_forms_agree ⟨{ verbose := true, duration := some "5s" }, by decide, rfl⟩ .onTimeoutLimit
    "-=2s" ["sleep", "9"]

/-! ## Short options, alone and in a cluster -/

def flagLetters : List Char := ['p', 'f', 'v', 'q']

def valueLetters : List Char := ['s', 'k', 'c', 'r', 'H', 'S']

/-- A short option by itself. -/
def dashed (letters : List Char) : String := String.ofList ('-' :: letters)

/-- What a row of flags sets. -/
def setFlags : Args → List Char → Args
  | r, [] => r
  | r, c :: letters => match shortFlag c with
    | some f => setFlags (f.set r) letters
    | none => setFlags r letters

theorem setFlags_positionals (r : Args) (letters : List Char) :
    (setFlags r letters).positionals = r.positionals := by
  induction letters generalizing r with
  | nil => rfl
  | cons c letters ih =>
    unfold setFlags
    split
    · rw [ih, Flag.set_positionals]
    · exact ih r

theorem toList_dashed (letters : List Char) : (dashed letters).toList = '-' :: letters :=
  String.toList_ofList

/-- A dash and two characters more, the first no dash, are no arm by themselves. -/
theorem classify_dashed {c c' : Char} (hc : c ≠ '-') (letters : List Char) :
    classify (dashed (c :: c' :: letters)) = .short := by
  have hlist := toList_dashed (c :: c' :: letters)
  -- the long forms begin with two dashes, and the second character here is none
  have hlong : ∀ p : String, p.toList.take 2 = ['-', '-'] →
      startsWith (dashed (c :: c' :: letters)) p = false := by
    intro p hp
    rw [Bool.eq_false_iff]
    intro hs
    have hpre := (List.take_prefix 2 p.toList).trans (startsWith_iff.mp hs)
    rw [hp, hlist, List.cons_prefix_cons, List.cons_prefix_cons] at hpre
    exact hc hpre.2.1.symm
  -- an exact arm has at most two characters or begins with two dashes
  have hexact : exactArms.lookup (dashed (c :: c' :: letters)) = none := by
    rw [List.lookup_eq_none_iff]
    intro arm harm
    rw [bne_iff_ne]
    intro hs
    have harm' := (show ∀ arm ∈ exactArms, arm.1.toList.length ≤ 2 ∨
      arm.1.toList.take 2 = ['-', '-'] by decide +kernel) arm harm
    rw [← hs, hlist] at harm'
    rcases harm' with hlen | htake
    · simp at hlen
    · simp [hc] at htake
  have hinline : inlineArms.find? (fun arm => startsWith (dashed (c :: c' :: letters)) arm.1) =
      none := by
    rw [List.find?_eq_none]
    intro arm harm
    have harm' := (show ∀ arm ∈ inlineArms, arm.1.toList.take 2 = ['-', '-'] by decide +kernel)
      arm harm
    rw [hlong arm.1 harm']
    exact Bool.false_ne_true
  have hdash : startsWith (dashed (c :: c' :: letters)) "-" = true := by
    rw [startsWith_iff, hlist]
    exact ⟨c :: c' :: letters, rfl⟩
  have hsize : 1 < (dashed (c :: c' :: letters)).utf8ByteSize := by
    have happ : dashed (c :: c' :: letters) = "-" ++ String.ofList (c :: c' :: letters) := by
      apply String.toList_inj.mp
      rw [hlist, String.toList_append, @String.toList_ofList (c :: c' :: letters)]
      rfl
    have hne : (String.ofList (c :: c' :: letters)).utf8ByteSize ≠ 0 := by
      intro hzero
      have hnil := congrArg String.toList (String.utf8ByteSize_eq_zero_iff.mp hzero)
      rw [String.toList_ofList] at hnil
      cases hnil
    rw [happ, String.utf8ByteSize_append]
    have hone : "-".utf8ByteSize = 1 := by decide
    omega
  unfold classify
  simp only [hexact, hinline, hlong "--" (by decide), hdash, hsize, decide_true, Bool.and_self,
    Bool.false_eq_true, if_false, if_true]

theorem flagLetters_flag : ∀ c ∈ flagLetters, ∃ f, shortFlag c = some f ∧
    classify (dashed [c]) = .flag f := by
  intro c hc
  simp only [flagLetters, List.mem_cons, List.not_mem_nil, or_false] at hc
  rcases hc with rfl | rfl | rfl | rfl <;> exact ⟨_, rfl, rfl⟩

/-- A letter that takes a value: alone it is an arm, or, as `-r`, a cluster. -/
theorem valueLetters_value : ∀ x ∈ valueLetters, ∃ o missing, shortFlag x = none ∧
    shortValue x = some (o, missing) ∧
    ((∃ missing', classify (dashed [x]) = .value o missing') ∨ classify (dashed [x]) = .short) := by
  intro x hx
  simp only [valueLetters, List.mem_cons, List.not_mem_nil, or_false] at hx
  rcases hx with rfl | rfl | rfl | rfl | rfl | rfl
  all_goals first
    | exact ⟨_, _, rfl, rfl, .inl ⟨_, rfl⟩⟩
    | exact ⟨_, _, rfl, rfl, .inr rfl⟩

/-- The letters a cluster goes through are flags: they are set one by one. -/
theorem cluster_flags (s : String) {letters : List Char} (hflags : ∀ c ∈ letters, c ∈ flagLetters)
    (tail : List Char) (r : Args) (rest : List String) :
    cluster s (letters ++ tail) r rest = cluster s tail (setFlags r letters) rest := by
  induction letters generalizing r with
  | nil => rfl
  | cons c letters ih =>
    obtain ⟨hc, hletters⟩ := List.forall_mem_cons.mp hflags
    obtain ⟨f, hf, -⟩ := flagLetters_flag c hc
    have hne : c ≠ 'h' ∧ c ≠ 'V' :=
      (show ∀ c ∈ flagLetters, c ≠ 'h' ∧ c ≠ 'V' by simp [flagLetters]) c hc
    rw [List.cons_append, cluster, hf]
    · simp only [setFlags, hf]
      exact ih hletters (f.set r)
    · exact fun h => hne.1 h
    · exact fun h => hne.2 h

/-- A letter that takes a value takes it from the rest of its cluster, or from the next token. -/
theorem cluster_value (s : String) {x : Char} (hx : x ∈ valueLetters) {o : ValueOpt}
    {missing : String} (hvalue : shortValue x = some (o, missing)) (w : List Char) (r : Args)
    (rest : List String) :
    cluster s (x :: w) r rest =
      if w.isEmpty then takeValue o missing r rest
      else (o.set r (String.ofList w)).map fun r' => (r', rest) := by
  have hne : x ≠ 'h' ∧ x ≠ 'V' ∧ shortFlag x = none :=
    (show ∀ x ∈ valueLetters, x ≠ 'h' ∧ x ≠ 'V' ∧ shortFlag x = none by
      simp [valueLetters, shortFlag]) x hx
  rw [cluster, hne.2.2]
  · simp only [hvalue]
  · exact fun h => hne.1 h
  · exact fun h => hne.2.1 h

/-! ## Reading the spellings -/

theorem dashed_ne_separator {c : Char} (hc : c ≠ '-') (letters : List Char) :
    dashed (c :: letters) ≠ "--" := by
  intro h
  have hlist := congrArg String.toList h
  rw [toList_dashed] at hlist
  exact hc (List.cons.inj (List.cons.inj hlist).2).1

theorem secondIsDigit_dashed (c : Char) (letters : List Char) :
    secondIsDigit (dashed (c :: letters)) = c.isDigit := by
  unfold secondIsDigit
  rw [toList_dashed]
  rfl

/-- Letters that are read in a cluster. -/
theorem letters_plain : ∀ c ∈ flagLetters ++ valueLetters, c ≠ '-' ∧ c.isDigit = false := by
  simp [flagLetters, valueLetters]

/-- Before the duration a token that is no arm by itself is a cluster. -/
theorem readOption_cluster {c : Char} (hc : c ∈ flagLetters ++ valueLetters) {letters : List Char}
    (hword : classify (dashed (c :: letters)) = .short) (hdur : r.duration = none)
    (rest : List String) :
    readOption r (dashed (c :: letters)) rest =
      cluster (dashed (c :: letters)) (c :: letters) r rest := by
  obtain ⟨-, hdigit⟩ := letters_plain c hc
  unfold readOption
  rw [hword]
  simp only [hdur, Option.isSome_none, secondIsDigit_dashed, hdigit, Bool.or_self,
    Bool.false_eq_true, if_false, toList_dashed]
  rfl

/-- So it is with two letters or more. -/
theorem readOption_dashed {letters : List Char} (hlen : 2 ≤ letters.length)
    (hhead : ∀ c ∈ letters.head?, c ∈ flagLetters ++ valueLetters) (hdur : r.duration = none)
    (rest : List String) :
    readOption r (dashed letters) rest = cluster (dashed letters) letters r rest := by
  match letters, hlen, hhead with
  | c :: c' :: letters, _, hhead =>
    have hc := hhead c rfl
    exact readOption_cluster hc (classify_dashed (letters_plain c hc).1 letters) hdur rest

/-- Flags one by one. -/
theorem parseTokens_flags {letters : List Char} (hflags : ∀ c ∈ letters, c ∈ flagLetters)
    (hcmd : r.command = none) (more : List String) :
    parseTokens ⟨r, false, letters.map (fun c => dashed [c]) ++ more⟩ =
      parseTokens ⟨setFlags r letters, false, more⟩ := by
  induction letters generalizing r with
  | nil => rfl
  | cons c letters ih =>
    obtain ⟨hc, hletters⟩ := List.forall_mem_cons.mp hflags
    obtain ⟨f, hf, hword⟩ := flagLetters_flag c hc
    have hplain := letters_plain c (List.mem_append_left _ hc)
    have hread : ∀ rest, readOption r (dashed [c]) rest = .ok (f.set r, rest) := by
      intro rest
      unfold readOption
      rw [hword]
    have hcmd' : (f.set r).command = none := by
      have hpos := congrArg (fun p => p.2.1) (Flag.set_positionals r f)
      exact hpos.trans hcmd
    calc parseTokens ⟨r, false, (c :: letters).map (fun c => dashed [c]) ++ more⟩
        = parseTokens ⟨f.set r, false, letters.map (fun c => dashed [c]) ++ more⟩ := by
          rw [List.map_cons, List.cons_append,
            parseTokens_option hcmd (dashed_ne_separator hplain.1 []), hread]
          rfl
      _ = parseTokens ⟨setFlags (f.set r) letters, false, more⟩ := ih hletters hcmd'
      _ = parseTokens ⟨setFlags r (c :: letters), false, more⟩ := by simp only [setFlags, hf]

/-- A value letter alone takes the next token. -/
theorem readOption_value {x : Char} (hx : x ∈ valueLetters) {o : ValueOpt} {missing : String}
    (hvalue : shortValue x = some (o, missing)) (hdur : r.duration = none) (w : String)
    (rest : List String) :
    readOption r (dashed [x]) (w :: rest) = (o.set r w).map fun r' => (r', rest) := by
  obtain ⟨o', missing', -, hvalue', hword⟩ := valueLetters_value x hx
  rw [hvalue] at hvalue'
  cases hvalue'
  rcases hword with ⟨missing', hword⟩ | hword
  · unfold readOption
    rw [hword]
    rfl
  · rw [readOption_cluster (List.mem_append_right _ hx) hword hdur, cluster_value _ hx hvalue]
    rfl

/-- A cluster of flags is read like its flags one by one. -/
theorem parseTokens_cluster {letters : List Char} (hflags : ∀ c ∈ letters, c ∈ flagLetters)
    (hsome : letters ≠ []) (hcmd : r.command = none) (hdur : r.duration = none)
    (more : List String) :
    parseTokens ⟨r, false, dashed letters :: more⟩ =
      parseTokens ⟨r, false, letters.map (fun c => dashed [c]) ++ more⟩ := by
  match letters, hflags, hsome with
  | [], _, hsome => exact absurd rfl hsome
  | [c], _, _ => rfl
  | c :: c' :: letters, hflags, _ =>
    have hc := List.mem_append_left valueLetters (hflags c (List.mem_cons_self ..))
    have hread : readOption r (dashed (c :: c' :: letters)) more =
        .ok (setFlags r (c :: c' :: letters), more) := by
      rw [readOption_cluster hc (classify_dashed (letters_plain c hc).1 letters) hdur]
      have hrow := cluster_flags (dashed (c :: c' :: letters)) hflags [] r more
      rwa [List.append_nil] at hrow
    rw [parseTokens_option hcmd (dashed_ne_separator (letters_plain c hc).1 _), hread,
      parseTokens_flags hflags hcmd]
    rfl

/-- The state after a row of flags and one value. -/
def parseValue (r : Args) (letters : List Char) (o : ValueOpt) (w : String) (more : List String) :
    Except ParseExit ParseState :=
  (o.set (setFlags r letters) w).bind fun r' => parseTokens ⟨r', false, more⟩

/-- The row of flags, the option and its value one by one. -/
theorem parseTokens_apart {letters : List Char} (hflags : ∀ c ∈ letters, c ∈ flagLetters)
    {x : Char} (hx : x ∈ valueLetters) {o : ValueOpt} {missing : String}
    (hvalue : shortValue x = some (o, missing)) (hcmd : r.command = none)
    (hdur : r.duration = none) (w : String) (more : List String) :
    parseTokens ⟨r, false, letters.map (fun c => dashed [c]) ++ dashed [x] :: w :: more⟩ =
      parseValue r letters o w more := by
  have hpos := setFlags_positionals r letters
  have hdur' : (setFlags r letters).duration = none := (congrArg Prod.fst hpos).trans hdur
  have hcmd' : (setFlags r letters).command = none :=
    (congrArg (fun p => p.2.1) hpos).trans hcmd
  have hplain := letters_plain x (List.mem_append_right _ hx)
  rw [parseTokens_flags hflags hcmd, parseTokens_option hcmd' (dashed_ne_separator hplain.1 []),
    readOption_value hx hvalue hdur']
  unfold parseValue
  cases o.set (setFlags r letters) w <;> rfl

/-- A cluster whose last letter takes a value: the rest of it, or the next token. -/
theorem parseTokens_joined {letters : List Char} (hflags : ∀ c ∈ letters, c ∈ flagLetters)
    {x : Char} (hx : x ∈ valueLetters) {o : ValueOpt} {missing : String}
    (hvalue : shortValue x = some (o, missing)) (hcmd : r.command = none)
    (hdur : r.duration = none) {tail : List Char} (hlen : 2 ≤ (letters ++ x :: tail).length)
    (more : List String) :
    parseTokens ⟨r, false, dashed (letters ++ x :: tail) :: more⟩ =
      (if tail.isEmpty then takeValue o missing (setFlags r letters) more
        else (o.set (setFlags r letters) (String.ofList tail)).map fun r' => (r', more)).bind
          fun p => parseTokens ⟨p.1, false, p.2⟩ := by
  have hhead : ∀ c ∈ (letters ++ x :: tail).head?, c ∈ flagLetters ++ valueLetters := by
    intro c hc
    cases letters with
    | nil => cases hc; exact List.mem_append_right _ hx
    | cons c' letters => cases hc; exact List.mem_append_left _ (hflags c (List.mem_cons_self ..))
  have hne : dashed (letters ++ x :: tail) ≠ "--" := by
    cases letters with
    | nil => exact dashed_ne_separator (letters_plain x (List.mem_append_right _ hx)).1 _
    | cons c letters =>
      have hc := List.mem_append_left valueLetters (hflags c (List.mem_cons_self ..))
      exact dashed_ne_separator (letters_plain c hc).1 _
  rw [parseTokens_option hcmd hne, readOption_dashed hlen hhead hdur, cluster_flags _ hflags,
    cluster_value _ hx hvalue]

/-- A value in the cluster itself. -/
theorem parseTokens_embedded {letters : List Char} (hflags : ∀ c ∈ letters, c ∈ flagLetters)
    {x : Char} (hx : x ∈ valueLetters) {o : ValueOpt} {missing : String}
    (hvalue : shortValue x = some (o, missing)) (hcmd : r.command = none)
    (hdur : r.duration = none) {w : String} (hw : w ≠ "") (more : List String) :
    parseTokens ⟨r, false, dashed (letters ++ x :: w.toList) :: more⟩ =
      parseValue r letters o w more := by
  have hsome : w.toList ≠ [] := fun hnil => hw (String.toList_inj.mp hnil)
  have hlen : 2 ≤ (letters ++ x :: w.toList).length := by
    have hpos := List.length_pos_of_ne_nil hsome
    rw [List.length_append, List.length_cons]
    omega
  rw [parseTokens_joined hflags hx hvalue hcmd hdur hlen, List.isEmpty_eq_false_iff.mpr hsome]
  simp only [Bool.false_eq_true, if_false, String.ofList_toList]
  unfold parseValue
  cases o.set (setFlags r letters) w <;> rfl

/-- A value after the cluster. -/
theorem parseTokens_trailing {letters : List Char} (hflags : ∀ c ∈ letters, c ∈ flagLetters)
    {x : Char} (hx : x ∈ valueLetters) {o : ValueOpt} {missing : String}
    (hvalue : shortValue x = some (o, missing)) (hcmd : r.command = none)
    (hdur : r.duration = none) (w : String) (more : List String) :
    parseTokens ⟨r, false, dashed (letters ++ [x]) :: w :: more⟩ = parseValue r letters o w more := by
  cases letters with
  | nil => exact parseTokens_apart hflags hx hvalue hcmd hdur w more
  | cons c letters =>
    have hlen : 2 ≤ (c :: letters ++ [x]).length := by
      rw [List.length_append, List.length_cons, List.length_singleton]
      omega
    rw [parseTokens_joined hflags hx hvalue hcmd hdur hlen]
    unfold parseValue
    show ((o.set _ w).map _).bind _ = _
    cases o.set (setFlags r (c :: letters)) w <;> rfl

/-- After the duration a short token that is no arm by itself is the command. -/
theorem parseTokens_short_command {c c' : Char} (hc : c ≠ '-') (letters : List Char)
    (hcmd : r.command = none) (hdur : r.duration.isSome = true) (more : List String)
    {st : ParseState}
    (h : parseTokens ⟨r, false, dashed (c :: c' :: letters) :: more⟩ = .ok st) :
    st.result.command = some (dashed (c :: c' :: letters)) := by
  have hread : readOption r (dashed (c :: c' :: letters)) more =
      .ok ({ r with command := some (dashed (c :: c' :: letters)) }, more) := by
    obtain ⟨d, hd⟩ := Option.isSome_iff_exists.mp hdur
    unfold readOption
    rw [classify_dashed hc]
    simp only [Option.isSome_some, Bool.true_or, if_true, Args.positional, hd, hcmd, Option.isNone_some,
      Bool.false_eq_true, if_false, Option.isNone_none]
  rw [parseTokens_option hcmd (dashed_ne_separator hc _), hread] at h
  have hline := parseTokens_command (r := { r with command := some (dashed (c :: c' :: letters)) })
    rfl false more
  cases hline.symm.trans h
  rfl

/-- **Before the duration the short spellings agree**: a cluster of flags is the flags one by
    one, and a value may follow its letter in the cluster, in the next token, or apart from
    the flags. After the duration a token of a dash and two or more characters is no longer
    read as options: it is the command. -/
theorem short_forms_agree (hpos : OptionPosition pre r) (post : List String) :
    (r.duration = none → ∀ letters : List Char, (∀ c ∈ letters, c ∈ flagLetters) →
      (letters ≠ [] → parseFromSlice (pre ++ [dashed letters] ++ post) =
        parseFromSlice (pre ++ letters.map (fun c => dashed [c]) ++ post)) ∧
      ∀ x ∈ valueLetters, ∀ w : String, w ≠ "" →
        parseFromSlice (pre ++ [dashed (letters ++ x :: w.toList)] ++ post) =
          parseFromSlice (pre ++ letters.map (fun c => dashed [c]) ++ [dashed [x], w] ++ post) ∧
        parseFromSlice (pre ++ [dashed (letters ++ [x]), w] ++ post) =
          parseFromSlice (pre ++ letters.map (fun c => dashed [c]) ++ [dashed [x], w] ++ post)) ∧
    (r.duration.isSome = true → ∀ (c c' : Char) (letters : List Char) (res : Args), c ≠ '-' →
      parseFromSlice (pre ++ [dashed (c :: c' :: letters)] ++ post) = .ok res →
      res.command = some (dashed (c :: c' :: letters))) := by
  -- the tokens before leave the parser at the same place in all spellings
  have hparse : ∀ toks : List String, parseTokens { rest := pre ++ toks ++ post } =
      parseTokens ⟨r, false, toks ++ post⟩ := by
    intro toks
    rw [List.append_assoc]
    exact hpos.parse _
  refine ⟨fun hdur letters hflags => ⟨fun hsome => ?_, fun x hx w hw => ?_⟩, ?_⟩
  · apply parseFromSlice_congr
    rw [hparse, hparse]
    exact parseTokens_cluster hflags hsome hpos.2 hdur post
  · obtain ⟨o, missing, -, hvalue, -⟩ := valueLetters_value x hx
    -- the spelling with every letter apart is what the two others are compared with
    have hapart : parseTokens
        { rest := pre ++ letters.map (fun c => dashed [c]) ++ [dashed [x], w] ++ post } =
          parseValue r letters o w post := by
      rw [List.append_assoc pre, hparse, List.append_assoc]
      exact parseTokens_apart hflags hx hvalue hpos.2 hdur w post
    constructor
    · apply parseFromSlice_congr
      rw [hparse, hapart]
      exact parseTokens_embedded hflags hx hvalue hpos.2 hdur hw post
    · apply parseFromSlice_congr
      rw [hparse, hapart]
      exact parseTokens_trailing hflags hx hvalue hpos.2 hdur w post
  · intro hdur c c' letters res hc hres
    obtain ⟨st, hst, rfl, -⟩ := parseFromSlice_tokens hres
    rw [hparse] at hst
    exact parseTokens_short_command hc letters hpos.2 hdur post hst

theorem short_forms_agree_cluster :
    parseFromSlice (["--json"] ++ [dashed ['p', 'f']] ++ ["5s", "ls"]) =
        parseFromSlice (["--json"] ++ [dashed ['p'], dashed ['f']] ++ ["5s", "ls"]) ∧
      parseFromSlice (["--json"] ++ [dashed (['p'] ++ 's' :: "HUP".toList)] ++ ["5s", "ls"]) =
        parseFromSlice (["--json"] ++ [dashed ['p']] ++ [dashed ['s'], "HUP"] ++ ["5s", "ls"]) :=
  have hpos : OptionPosition ["--json"] { json := true } := ⟨by decide, rfl⟩
  ⟨((short_forms_agree hpos ["5s", "ls"]).1 rfl ['p', 'f'] (by simp [flagLetters])).1 (by decide),
    (((short_forms_agree hpos ["5s", "ls"]).1 rfl ['p'] (by simp [flagLetters])).2 's' (by decide) "HUP"
      (by decide)).1⟩

/-- After the duration `-p -f` are still options, and `-pf` is the command. -/
theorem cluster_after_duration :
    OptionPosition ["5s"] { duration := some "5s" } ∧
      parseFromSlice (["5s"] ++ [dashed ['p', 'f']] ++ ["ls"]) =
        .ok { duration := some "5s", command := some "-pf", args := ["ls"] } ∧
      parseFromSlice (["5s"] ++ [dashed ['p'], dashed ['f']] ++ ["ls"]) =
        .ok { duration := some "5s", command := some "ls", preserveStatus := true,
              foreground := true } ∧
      parseFromSlice (["5s"] ++ [dashed ('s' :: "HUP".toList)] ++ ["ls"]) ≠
        parseFromSlice (["5s"] ++ [dashed ['s'], "HUP"] ++ ["ls"]) := by
  refine ⟨⟨?_, rfl⟩, ?_, ?_, ?_⟩ <;> decide +kernel

end Procguard
