import Procguard.DurationRules
import Procguard.Spellings

/- From the arguments back to a command line. `parse_from_slice` goes one way; here the
   other way is written down: every option that was given as `--opt` or `--opt=v`, then
   the duration, a separator, and the command with its arguments. What the parser can
   give (`Args.Parsed`) is what it gives for that command line, in whatever order the
   options stand, so that a run can be repeated from its parsed arguments alone.

   An option reads and writes fields of its own. `copy` takes them from another record,
   copies commute, and the words of an option, read where its fields are still as at
   the start, are a copy (`parseTokens_words`); the rest is a fold over the options. -/
namespace Procguard
open Text

/-- A flag, or an option with a value. -/
inductive Opt where
  | flag (f : Flag)
  | value (o : ValueOpt)
  deriving DecidableEq, Repr

def allOptions : List Opt :=
  [.flag .json, .flag .preserveStatus, .flag .foreground, .flag .verbose, .flag .quiet,
    .flag .stdinPassthrough, .value .signal, .value .killAfter, .value .timeoutExitCode,
    .value .onTimeout, .value .onTimeoutLimit, .value .confine, .value .waitForFile,
    .value .waitForFileTimeout, .value .retry, .value .retryDelay, .value .retryBackoff,
    .value .heartbeat, .value .stdinTimeout, .value .memLimit, .value .cpuTime, .value .cpuPercent]

/-! ## Writing an option -/

def Flag.longName : Flag → String
  | .json => "--json"
  | .preserveStatus => "--preserve-status"
  | .foreground => "--foreground"
  | .verbose => "--verbose"
  | .quiet => "--quiet"
  | .stdinPassthrough => "--stdin-passthrough"

def Flag.isSet (r : Args) : Flag → Bool
  | .json => r.json
  | .preserveStatus => r.preserveStatus
  | .foreground => r.foreground
  | .verbose => r.verbose
  | .quiet => r.quiet
  | .stdinPassthrough => r.stdinPassthrough

def Confine.word : Confine → String
  | .wall => "wall"
  | .active => "active"

/-- What to write behind the `=`, unless the field is as it is without the option. -/
def ValueOpt.written (r : Args) : ValueOpt → Option String
  | .signal => if r.signal = "" then none else some r.signal
  | .killAfter => r.killAfter
  | .timeoutExitCode => r.timeoutExitCode.map fun code => toString code.toNat
  | .onTimeout => r.onTimeout
  | .onTimeoutLimit => if r.onTimeoutLimit = "5s" then none else some r.onTimeoutLimit
  | .confine => if r.confineSpecified then some r.confine.word else none
  | .waitForFile => r.waitForFile
  | .waitForFileTimeout => r.waitForFileTimeout
  | .retry => r.retry
  | .retryDelay => r.retryDelay
  | .retryBackoff => r.retryBackoff
  | .heartbeat => r.heartbeat
  | .stdinTimeout => r.stdinTimeout
  | .memLimit => r.memLimit
  | .cpuTime => r.cpuTime
  | .cpuPercent => r.cpuPercent

def Opt.words (r : Args) : Opt → List String
  | .flag f => if f.isSet r then [f.longName] else []
  | .value o => ((o.written r).map fun v => o.longName ++ "=" ++ v).toList

/-- The command line that says `r`, its options in the order `opts`. -/
def Args.commandLine (r : Args) (opts : List Opt) : List String :=
  opts.flatMap (Opt.words r) ++ (r.duration.toList ++ "--" :: (r.command.toList ++ r.args))

/-! ## Copying the fields of an option -/

def Flag.copy (src dst : Args) : Flag → Args
  | .json => { dst with json := src.json }
  | .preserveStatus => { dst with preserveStatus := src.preserveStatus }
  | .foreground => { dst with foreground := src.foreground }
  | .verbose => { dst with verbose := src.verbose }
  | .quiet => { dst with quiet := src.quiet }
  | .stdinPassthrough => { dst with stdinPassthrough := src.stdinPassthrough }

def ValueOpt.copy (src dst : Args) : ValueOpt → Args
  | .signal => { dst with signal := src.signal }
  | .killAfter => { dst with killAfter := src.killAfter }
  | .timeoutExitCode => { dst with timeoutExitCode := src.timeoutExitCode }
  | .onTimeout => { dst with onTimeout := src.onTimeout }
  | .onTimeoutLimit => { dst with onTimeoutLimit := src.onTimeoutLimit }
  | .confine => { dst with confine := src.confine, confineSpecified := src.confineSpecified }
  | .waitForFile => { dst with waitForFile := src.waitForFile }
  | .waitForFileTimeout => { dst with waitForFileTimeout := src.waitForFileTimeout }
  | .retry => { dst with retry := src.retry }
  | .retryDelay => { dst with retryDelay := src.retryDelay }
  | .retryBackoff => { dst with retryBackoff := src.retryBackoff }
  | .heartbeat => { dst with heartbeat := src.heartbeat }
  | .stdinTimeout => { dst with stdinTimeout := src.stdinTimeout }
  | .memLimit => { dst with memLimit := src.memLimit }
  | .cpuTime => { dst with cpuTime := src.cpuTime }
  | .cpuPercent => { dst with cpuPercent := src.cpuPercent }

def Opt.copy (src dst : Args) : Opt → Args
  | .flag f => f.copy src dst
  | .value o => o.copy src dst

/-- The options of `src` over those of `dst`, one after another. -/
def copyAll (src : Args) (opts : List Opt) (dst : Args) : Args :=
  opts.foldl (fun d o => o.copy src d) dst

variable {src dst r : Args} {argv more : List String} {opts : List Opt}

/-- Two options have no field in common. -/
theorem Flag.copy_comm (s s' d : Args) {f f' : Flag} (h : f ≠ f') :
    f.copy s (f'.copy s' d) = f'.copy s' (f.copy s d) := by
  cases f <;> cases f' <;> first | (exfalso; exact h rfl) | exact rfl

theorem ValueOpt.copy_comm (s s' d : Args) {o o' : ValueOpt} (h : o ≠ o') :
    o.copy s (o'.copy s' d) = o'.copy s' (o.copy s d) := by
  cases o <;> cases o' <;> first | (exfalso; exact h rfl) | exact rfl

theorem Flag.copy_value (s s' d : Args) (f : Flag) (o : ValueOpt) :
    f.copy s (o.copy s' d) = o.copy s' (f.copy s d) := by
  cases f <;> cases o <;> rfl

theorem Opt.copy_comm (s s' d : Args) {o o' : Opt} (h : o ≠ o') :
    o.copy s (o'.copy s' d) = o'.copy s' (o.copy s d) := by
  rcases o with f | o <;> rcases o' with f' | o'
  · exact Flag.copy_comm s s' d fun heq => h (congrArg Opt.flag heq)
  · exact Flag.copy_value s s' d f o'
  · exact (Flag.copy_value s' s d f' o).symm
  · exact ValueOpt.copy_comm s s' d fun heq => h (congrArg Opt.value heq)

theorem Opt.copy_positionals (s d : Args) (o : Opt) : (o.copy s d).positionals = d.positionals := by
  rcases o with f | o
  · cases f <;> rfl
  · cases o <;> rfl

/-- The options make up the whole record but for the positionals. -/
theorem copyAll_all (src : Args) :
    copyAll src allOptions {} = { src with duration := none, command := none, args := [] } := by
  simp only [copyAll, allOptions, List.foldl_cons, List.foldl_nil, Opt.copy, Flag.copy,
    ValueOpt.copy]

/-- The order of the options does not matter. -/
theorem copyAll_perm {opts' : List Opt} (h : opts.Perm opts') (src dst : Args) :
    copyAll src opts dst = copyAll src opts' dst := by
  apply h.foldl_eq'
  intro o _ o' _ d
  by_cases heq : o = o'
  · rw [heq]
  · exact (Opt.copy_comm src src d heq).symm

/-! ## Reading the words of an option -/

/-- What the loop can leave. -/
structure Args.Readable (r : Args) : Prop where
  confine : r.confineSpecified = false → r.confine = .wall
  duration : ∀ d ∈ r.duration, readsOption {} d = false
  args : r.command = none → r.args = []

/-- What a parse can give. -/
structure Args.Parsed (r : Args) : Prop extends r.Readable where
  noise : ¬ (r.verbose = true ∧ r.quiet = true)

theorem Flag.classify_longName (f : Flag) : classify f.longName = .flag f := by
  cases f <;> rfl

theorem Flag.longName_ne_separator (f : Flag) : f.longName ≠ "--" := by
  cases f <;> decide

theorem Flag.set_eq_copy {f : Flag} (h : f.isSet src = true) (dst : Args) :
    f.set dst = f.copy src dst := by
  cases f <;> simp only [Flag.isSet] at h <;> simp only [Flag.set, Flag.copy, h]

theorem Flag.copy_unset {f : Flag} (h : f.isSet src = false) (dst : Args) :
    f.copy src dst = f.copy {} dst := by
  cases f <;> simp only [Flag.isSet] at h <;> simp only [Flag.copy, h]

/-- A number in decimal is read back. -/
theorem parseUnsigned_toString {max n : Nat} (h : n ≤ max) :
    parseUnsigned max (toString n).toList = some n := by
  have hlist : (toString n).toList = Nat.toDigits 10 n := Nat.toList_repr
  have hdigits : ∀ c ∈ Nat.toDigits 10 n, c.isDigit = true := by
    intro c hc
    exact Nat.isDigit_of_mem_toDigits (by decide) (by decide) hc
  rw [hlist]
  apply (parseUnsigned_digits Nat.toDigits_ne_nil hdigits false).mpr
  exact ⟨Nat.ofDigitChars_ten_toDigits.symm, h⟩

theorem Confine.fromStr_word (c : Confine) : Confine.fromStr c.word = some c := by
  cases c <;> decide

theorem ValueOpt.set_eq_copy {o : ValueOpt} {v : String} (h : o.written src = some v) (dst : Args) :
    o.set dst v = .ok (o.copy src dst) := by
  cases o <;> simp only [ValueOpt.written] at h <;> simp only [ValueOpt.set, ValueOpt.copy]
  case signal | onTimeoutLimit =>
    split at h
    · cases h
    · cases h; rfl
  case timeoutExitCode =>
    obtain ⟨code, hcode, rfl⟩ := Option.map_eq_some_iff.mp h
    have hread : parseUnsigned 255 (toString code.toNat).toList = some code.toNat :=
      parseUnsigned_toString (Nat.lt_succ_iff.mp code.toNat_lt)
    rw [hread, hcode]
    simp only [UInt8.ofNat_toNat]
  case confine =>
    split at h
    · next hgiven => cases h; rw [Confine.fromStr_word, hgiven]
    · cases h
  all_goals rw [h]

theorem ValueOpt.copy_unwritten {o : ValueOpt} (hsrc : src.Parsed) (h : o.written src = none)
    (dst : Args) : o.copy src dst = o.copy {} dst := by
  cases o <;> simp only [ValueOpt.written] at h <;> simp only [ValueOpt.copy]
  case signal | onTimeoutLimit =>
    split at h
    · next hsame => rw [hsame]
    · cases h
  case timeoutExitCode => rw [Option.map_eq_none_iff.mp h]
  case confine =>
    split at h
    · cases h
    · next hgiven =>
      have hfalse := Bool.eq_false_iff.mpr hgiven
      rw [hfalse, hsrc.confine hfalse]
  all_goals rw [h]

/-- **The words of an option are a copy of it**, read where its fields are as at the start. -/
theorem parseTokens_words (hsrc : src.Parsed) (hcmd : dst.command = none) {o : Opt}
    (hfresh : o.copy {} dst = dst) (more : List String) :
    parseTokens ⟨dst, false, o.words src ++ more⟩ = parseTokens ⟨o.copy src dst, false, more⟩ := by
  cases o with
  | flag f =>
    cases hset : f.isSet src with
    | false =>
      have hcopy : f.copy src dst = dst := (Flag.copy_unset hset dst).trans hfresh
      simp only [Opt.words, hset, Bool.false_eq_true, if_false, List.nil_append, Opt.copy, hcopy]
    | true =>
      simp only [Opt.words, hset, if_true, List.singleton_append, Opt.copy]
      rw [parseTokens_option hcmd f.longName_ne_separator]
      unfold readOption
      rw [Flag.classify_longName, ← Flag.set_eq_copy hset]
      rfl
  | value o =>
    cases hwritten : o.written src with
    | none =>
      have hcopy : o.copy src dst = dst :=
        (ValueOpt.copy_unwritten hsrc hwritten dst).trans hfresh
      simp only [Opt.words, hwritten, Option.map_none, Option.toList_none, List.nil_append, Opt.copy,
        hcopy]
    | some v =>
      simp only [Opt.words, hwritten, Option.map_some, Option.toList_some, List.singleton_append,
        Opt.copy]
      rw [parseTokens_option hcmd (inline_ne_separator o v)]
      have hread : readOption dst (o.longName ++ "=" ++ v) more = .ok (o.copy src dst, more) := by
        unfold readOption
        rw [classify_inline]
        simp only [ValueOpt.set_eq_copy hwritten]
        rfl
      rw [hread]
      rfl

/-- So are the words of several options, none of them twice. -/
theorem parseTokens_options (hsrc : src.Parsed) (hcmd : dst.command = none) (hnodup : opts.Nodup)
    (hfresh : ∀ o ∈ opts, o.copy {} dst = dst) (more : List String) :
    parseTokens ⟨dst, false, opts.flatMap (Opt.words src) ++ more⟩ =
      parseTokens ⟨copyAll src opts dst, false, more⟩ := by
  induction opts generalizing dst with
  | nil => rfl
  | cons o opts ih =>
    obtain ⟨hnew, hnodup⟩ := List.nodup_cons.mp hnodup
    obtain ⟨hfirst, hothers⟩ := List.forall_mem_cons.mp hfresh
    have hcmd' : (o.copy src dst).command = none :=
      (congrArg (fun p => p.2.1) (Opt.copy_positionals src dst o)).trans hcmd
    -- a copy of one option leaves the fields of the others as they are
    have hfresh' : ∀ o' ∈ opts, o'.copy {} (o.copy src dst) = o.copy src dst := by
      intro o' ho'
      have hne : o' ≠ o := by
        intro heq
        rw [heq] at ho'
        exact hnew ho'
      rw [Opt.copy_comm {} src dst hne, hothers o' ho']
    calc parseTokens ⟨dst, false, (o :: opts).flatMap (Opt.words src) ++ more⟩
        = parseTokens ⟨dst, false, o.words src ++ (opts.flatMap (Opt.words src) ++ more)⟩ := by
          rw [List.flatMap_cons, List.append_assoc]
      _ = parseTokens ⟨o.copy src dst, false, opts.flatMap (Opt.words src) ++ more⟩ :=
          parseTokens_words hsrc hcmd hfirst _
      _ = parseTokens ⟨copyAll src opts (o.copy src dst), false, more⟩ := ih hcmd' hnodup hfresh'

/-! ## Reading the positionals -/

/-- Before the duration an operand is told by itself. -/
theorem readsOption_fresh (hdur : r.duration = none) (d : String) :
    readsOption r d = readsOption {} d := by
  unfold readsOption
  rw [hdur]

theorem parseTokens_durationWord (hsrc : src.Parsed) (hdur : dst.duration = none)
    (hcmd : dst.command = none) (more : List String) :
    parseTokens ⟨dst, false, src.duration.toList ++ more⟩ =
      parseTokens ⟨{ dst with duration := src.duration }, false, more⟩ := by
  cases hd : src.duration with
  | none =>
    have hsame : ({ dst with duration := none } : Args) = dst := by rw [← hdur]
    rw [hsame]
    rfl
  | some d =>
    have hread := hsrc.duration d hd
    have hne : d ≠ "--" := by
      intro heq
      rw [heq] at hread
      exact absurd hread (by decide)
    show parseTokens ⟨dst, false, d :: more⟩ = _
    rw [parseTokens_option hcmd hne,
      readOption_positional ((readsOption_fresh hdur d).trans hread)]
    unfold Args.positional
    rw [hdur]
    rfl

/-- After the separator everything is the command and its arguments. -/
theorem parseTokens_separator (hsrc : src.Parsed) (hcmd : dst.command = none)
    (hargs : dst.args = []) :
    parseTokens ⟨dst, false, "--" :: (src.command.toList ++ src.args)⟩ =
      .ok ⟨{ dst with command := src.command, args := src.args }, true, []⟩ := by
  have hsep : parseToken ⟨dst, false, "--" :: (src.command.toList ++ src.args)⟩ "--"
      (src.command.toList ++ src.args) = .ok ⟨dst, true, src.command.toList ++ src.args⟩ := rfl
  rw [parseTokens_cons rfl, hsep]
  show parseTokens ⟨dst, true, src.command.toList ++ src.args⟩ = _
  cases hc : src.command with
  | none =>
    have hsame : ({ dst with command := none, args := [] } : Args) = dst := by
      rw [← hcmd, ← hargs]
    rw [hsrc.args hc, hsame]
    exact parseTokens_nil rfl
  | some c =>
    have htake : parseToken ⟨dst, true, c :: src.args⟩ c src.args =
        .ok ⟨{ dst with command := some c }, true, src.args⟩ := by
      unfold parseToken
      simp only [hcmd, if_true, Option.isNone_none]
    show parseTokens ⟨dst, true, c :: src.args⟩ = _
    rw [parseTokens_cons rfl, htake]
    show parseTokens ⟨{ dst with command := some c }, true, src.args⟩ = _
    rw [parseTokens_command rfl, hargs]
    rfl

theorem parseFromSlice_commandLine (hr : r.Parsed) (hopts : opts.Perm allOptions) :
    parseFromSlice (r.commandLine opts) = .ok r := by
  have hnodup : opts.Nodup := hopts.nodup_iff.mpr (by decide)
  have hfresh : ∀ o ∈ opts, o.copy {} {} = ({} : Args) := by
    intro o _
    rcases o with f | o
    · cases f <;> rfl
    · cases o <;> rfl
  have hline : parseTokens { rest := r.commandLine opts } = .ok ⟨r, true, []⟩ := by
    unfold Args.commandLine
    rw [parseTokens_options hr rfl hnodup hfresh, copyAll_perm hopts, copyAll_all,
      parseTokens_durationWord hr rfl rfl, parseTokens_separator hr rfl rfl]
  have hnoise : ¬ (r.verbose && r.quiet) = true := by
    rw [Bool.and_eq_true]
    exact hr.noise
  unfold parseFromSlice
  rw [hline]
  exact if_neg hnoise

/-! ## What the parser can give -/

theorem Flag.set_confine (r : Args) (f : Flag) :
    ((f.set r).confineSpecified, (f.set r).confine) = (r.confineSpecified, r.confine) := by
  cases f <;> rfl

/-- A mode that was not given is the default one. -/
theorem ValueOpt.set_confine {r r' : Args} {val : String} {o : ValueOpt} (h : o.set r val = .ok r') :
    r'.confineSpecified = true ∨ (r'.confineSpecified, r'.confine) = (r.confineSpecified, r.confine) := by
  unfold ValueOpt.set at h
  split at h
  case h_3 =>
    split at h
    · cases h; exact .inr rfl
    · cases h
  case h_6 =>
    split at h
    · cases h; exact .inl rfl
    · cases h
  all_goals cases h; exact .inr rfl

theorem Args.Readable.of_confine {r r' : Args} (hr : r.Readable)
    (hpos : r'.positionals = r.positionals)
    (hconfine : r'.confineSpecified = false → r'.confine = .wall) : r'.Readable := by
  have hdur : r'.duration = r.duration := congrArg Prod.fst hpos
  have hcmd : r'.command = r.command := congrArg (fun p => p.2.1) hpos
  have hargs : r'.args = r.args := congrArg (fun p => p.2.2) hpos
  refine ⟨hconfine, ?_, ?_⟩
  · rw [hdur]
    exact hr.duration
  · rw [hcmd, hargs]
    exact hr.args

theorem OptionsSet.readable {r r' : Args} (h : OptionsSet r r') (hr : r.Readable) : r'.Readable := by
  induction h with
  | refl => exact hr
  | @flag r r' f _ ih =>
    apply ih
    apply hr.of_confine (Flag.set_positionals r f)
    obtain ⟨hgiven, hmode⟩ := Prod.mk.inj (Flag.set_confine r f)
    rw [hgiven, hmode]
    exact hr.confine
  | @value r r₁ r' o val hset _ ih =>
    apply ih
    apply hr.of_confine (ValueOpt.set_positionals hset)
    intro hgiven
    rcases ValueOpt.set_confine hset with htrue | hsame
    · rw [hgiven] at htrue
      cases htrue
    · obtain ⟨hspec, hmode⟩ := Prod.mk.inj hsame
      rw [hmode]
      exact hr.confine (hspec.symm.trans hgiven)

/-- An operand: before the duration it is one that does not read as an option. -/
theorem Args.Readable.operand (hr : r.Readable) (arg : String) : (r.operand arg).Readable := by
  unfold Args.operand
  split
  · refine ⟨hr.confine, hr.duration, fun hnone => ?_⟩
    cases hnone
  · next hcmd =>
    exact ⟨hr.confine, hr.duration, fun hnone => absurd (Option.isNone_iff_eq_none.mpr hnone) hcmd⟩

theorem Args.Readable.positional (hr : r.Readable) {arg : String} (hcmd : r.command = none)
    (hread : readsOption r arg = false) : (r.positional arg).Readable := by
  unfold Args.positional
  split
  · next hdur =>
    have hnone := Option.isNone_iff_eq_none.mp hdur
    refine ⟨hr.confine, fun d hd => ?_, hr.args⟩
    cases hd
    rw [← readsOption_fresh hnone]
    exact hread
  · rw [hcmd]
    refine ⟨hr.confine, hr.duration, fun hnone => ?_⟩
    cases hnone

/-- What an iteration keeps. -/
theorem Taken.readable {st st' : ParseState} {arg : String} {rest : List String}
    (h : Taken st arg rest st') (hr : st.result.Readable) : st'.result.Readable := by
  cases h with
  | operand => exact hr.operand arg
  | separator => exact hr
  | argument _ _ hcmd =>
    refine ⟨hr.confine, hr.duration, fun hnone => ?_⟩
    change st.result.command = none at hnone
    rw [hnone] at hcmd
    cases hcmd
  | positional _ _ hcmd hread => exact hr.positional hcmd hread
  | option _ _ _ _ hset => exact hset.readable hr

/-- What the loop keeps. -/
theorem parseTokens_readable {st st' : ParseState} (h : parseTokens st = .ok st') :
    st.result.Readable → st'.result.Readable :=
  parseTokens_rule (P := fun st st' => st.result.Readable → st'.result.Readable) (fun _ _ hr => hr)
    (fun _ _ _ _ _ _ ht hP hr => hP (ht.readable hr)) h

theorem parsed_of_parseFromSlice (h : parseFromSlice argv = .ok r) : r.Parsed := by
  obtain ⟨st, hst, rfl, hnoise⟩ := parseFromSlice_tokens h
  have hstart : ({} : Args).Readable := by
    refine ⟨fun _ => rfl, fun d hd => ?_, fun _ => rfl⟩
    cases hd
  exact ⟨parseTokens_readable hst hstart, hnoise⟩

/-- **Parsing a written command line.** What the parser gives is exactly what `Args.Parsed`
    says, and written out as a command line, its options in any order, it is parsed back. -/
theorem command_line_round_trip (r : Args) (opts : List Opt) (hopts : opts.Perm allOptions) :
    ((∃ argv, parseFromSlice argv = .ok r) ↔ r.Parsed) ∧
      (r.Parsed → parseFromSlice (r.commandLine opts) = .ok r) := by
  have hwritten : r.Parsed → parseFromSlice (r.commandLine opts) = .ok r :=
    fun hr => parseFromSlice_commandLine hr hopts
  refine ⟨⟨?_, fun hr => ⟨_, hwritten hr⟩⟩, hwritten⟩
  intro hparse
  obtain ⟨argv, h⟩ := hparse
  exact parsed_of_parseFromSlice h

theorem command_line_round_trip_reversed :
    let r₁ : Args := { verbose := true, killAfter := some "-=2s", duration := some "5s",
                       command := some "--json", args := ["--", "-q"] }
    r₁.commandLine allOptions.reverse =
        ["--kill-after=-=2s", "--verbose", "5s", "--", "--json", "--", "-q"] ∧
      parseFromSlice ["--kill-after=-=2s", "--verbose", "5s", "--", "--json", "--", "-q"] =
        .ok r₁ := by
  intro r₁
  have hline : r₁.commandLine allOptions.reverse =
      ["--kill-after=-=2s", "--verbose", "5s", "--", "--json", "--", "-q"] := by decide +kernel
  refine ⟨hline, ?_⟩
  rw [← hline]
  apply (command_line_round_trip r₁ allOptions.reverse (List.reverse_perm _)).2
  refine ⟨⟨fun _ => rfl, by decide +kernel, fun hnone => ?_⟩, by decide⟩
  cases hnone

/-! ## The environment, written out -/

/-- A duration does not read as an option. -/
theorem readsOption_of_isDuration {d : String} (h : isDuration d = true) :
    readsOption {} d = false := by
  have hdash : startsWith d "-" = false := by
    cases hs : startsWith d "-" with
    | false => rfl
    | true =>
      obtain ⟨t, ht⟩ := startsWith_iff.mp hs
      change '-' :: t = d.toList at ht
      cases hp : parseDuration d with
      | error e => rw [isDuration, hp] at h; cases h
      | ok x =>
        obtain ⟨n, suffix, u, htrim, -⟩ := numeral_of_parseDuration hp
        -- the dash is not trimmed, so that the number starts with it
        have hkept : d.toList.dropWhile isWhite = '-' :: t := by
          rw [← ht]
          rfl
        have hpre : trim d <+: '-' :: t := by
          unfold trim
          rw [hkept]
          exact List.rdropWhile_prefix _ _
        rw [htrim] at hpre
        cases hn : n.text with
        | nil => exact absurd hn n.text_ne_nil
        | cons c cs =>
          rw [hn, List.cons_append, List.cons_prefix_cons] at hpre
          have hhead := n.head_ne_minus
          rw [hn, hpre.1] at hhead
          exact absurd rfl hhead
  unfold readsOption
  rw [classify_operand hdash]
  rfl

/-- With nothing in the environment only the signal has a default left to take. -/
theorem applyEnv_empty (h : r.signal ≠ "") : r.applyEnv (fun _ => none) = r := by
  have hsignal : r.signal.isEmpty = false := by
    rw [Bool.eq_false_iff]
    intro hempty
    exact h (String.isEmpty_iff.mp hempty)
  unfold Args.applyEnv
  simp only [hsignal, Bool.false_eq_true, if_false, Option.or_none, Option.filter_none]

/-- What is resolved is what was parsed, but for the fallbacks and the positionals. -/
theorem readable_of_resolved {env : Environment} (h : resolved env argv = .ok r) :
    (r.confineSpecified = false → r.confine = .wall) ∧ ¬ (r.verbose = true ∧ r.quiet = true) := by
  rw [resolved_eq] at h
  cases hp : parseFromSlice argv with
  | error e => rw [hp] at h; cases h
  | ok r₀ =>
    rw [hp] at h
    cases h
    have hr := parsed_of_parseFromSlice hp
    exact ⟨hr.confine, hr.noise⟩

/-- **A run is repeated without its environment.** When a command line and an environment give
    a duration, a command and a signal, the command line that says what they were resolved to
    is resolved to the same with no environment at all. -/
theorem environment_written_out (env : Environment) (argv : List String) (r : Args)
    (opts : List Opt) (d c : String) (hopts : opts.Perm allOptions)
    (hres : resolved env argv = .ok r) (hd : r.duration = some d) (hdur : isDuration d = true)
    (hc : r.command = some c) (hsignal : r.signal ≠ "") :
    resolved (fun _ => none) (r.commandLine opts) = .ok r := by
  obtain ⟨hconfine, hnoise⟩ := readable_of_resolved hres
  have hparsed : r.Parsed := by
    refine ⟨⟨hconfine, fun x hx => ?_, fun hnone => ?_⟩, hnoise⟩
    · rw [hd] at hx
      cases hx
      exact readsOption_of_isDuration hdur
    · rw [hc] at hnone
      cases hnone
  have hkept : resolveArgs r none = ⟨r.duration, r.command, r.args, none⟩ := by
    unfold resolveArgs
    rw [hd, hc]
  rw [resolved_eq, parseFromSlice_commandLine hparsed hopts]
  simp only [Except.map, applyEnv_empty hsignal, hkept]
  rfl

theorem environment_written_out_example :
    resolved (fun v => if v = "TIMEOUT" then some "1m" else if v = "TIMEOUT_KILL_AFTER" then some "3s"
        else none) ["make", "-j", "8"] =
      .ok { signal := "TERM", killAfter := some "3s", duration := some "1m", command := some "make",
            args := ["-j", "8"] } ∧
    resolved (fun _ => none) ["--signal=TERM", "--kill-after=3s", "1m", "--", "make", "-j", "8"] =
      .ok { signal := "TERM", killAfter := some "3s", duration := some "1m", command := some "make",
            args := ["-j", "8"] } :=
  have hres : resolved (fun v => if v = "TIMEOUT" then some "1m" else
      if v = "TIMEOUT_KILL_AFTER" then some "3s" else none) ["make", "-j", "8"] =
    .ok { signal := "TERM", killAfter := some "3s", duration := some "1m", command := some "make",
          args := ["-j", "8"] } := by decide +kernel
  ⟨hres, environment_written_out _ _ _ allOptions "1m" "make" (List.Perm.refl _) hres rfl
    (by decide +kernel) rfl (by decide)⟩

end Procguard
