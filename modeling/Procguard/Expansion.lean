import Procguard.Hook

/- The expansion of the hook's command line is one scan from left to right. The three
   replacements are followed one after another: after the first, no percent sign is
   followed by another; the second cannot make or break a placeholder, nor the third
   meet anything but placeholders, since the command line holds no NUL. -/
namespace Procguard

/-! ## Replacing -/

section replace
variable {pat rep : List Char}

theorem replaceFrom_append_skip (a x : List Char) :
    replaceFrom pat rep a.length (a ++ x) = replaceFrom pat rep 0 x := by
  induction a with
  | nil => rfl
  | cons c cs ih => exact ih

/-- A match is replaced, and the search goes on behind it. -/
theorem replaceFrom_match {p : Char} {ps : List Char} (x : List Char) :
    replaceFrom (p :: ps) rep 0 (p :: ps ++ x) = rep ++ replaceFrom (p :: ps) rep 0 x := by
  have hmatch : (p :: ps).isPrefixOf (p :: (ps ++ x)) = true :=
    List.isPrefixOf_iff_prefix.mpr (List.prefix_append (p :: ps) x)
  rw [List.cons_append, replaceFrom, if_pos hmatch]
  exact congrArg (rep ++ ·) (replaceFrom_append_skip ps x)

theorem replaceFrom_copy {c : Char} {x : List Char} (h : pat.isPrefixOf (c :: x) = false) :
    replaceFrom pat rep 0 (c :: x) = c :: replaceFrom pat rep 0 x := by
  rw [replaceFrom, h]
  rfl

/-- A piece without the first character of the pattern is copied. -/
theorem replaceFrom_avoid {p : Char} {ps a : List Char} (ha : ∀ c ∈ a, c ≠ p) (x : List Char) :
    replaceFrom (p :: ps) rep 0 (a ++ x) = a ++ replaceFrom (p :: ps) rep 0 x := by
  induction a with
  | nil => rfl
  | cons c cs ih =>
    have hne : (p == c) = false := by
      rw [beq_eq_false_iff_ne]
      exact (ha c (List.mem_cons_self ..)).symm
    have hno : (p :: ps).isPrefixOf (c :: (cs ++ x)) = false := by
      rw [List.isPrefixOf, hne, Bool.false_and]
    rw [List.cons_append, replaceFrom_copy hno, ih fun d hd => ha d (List.mem_cons_of_mem _ hd),
      List.cons_append]

end replace

/-! ## The scan -/

/-- One scan from left to right: `%%` becomes `percent` and `%p` becomes `pid`. -/
def scanHook (percent pid : List Char) : List Char → List Char
  | '%' :: '%' :: cs => percent ++ scanHook percent pid cs
  | '%' :: 'p' :: cs => pid ++ scanHook percent pid cs
  | c :: cs => c :: scanHook percent pid cs
  | [] => []

/-- What stands for a percent sign between the replacements. -/
def placeholder : List Char := ['\x00', 'P', 'E', 'R', 'C', 'E', 'N', 'T', '\x00']

/-- A character that is copied: not a percent sign, or one with neither another nor a `p`
    behind it. -/
theorem scanHook_copy {percent pid : List Char} {c : Char} {cs : List Char}
    (h : c = '%' → cs.head? ≠ some '%' ∧ cs.head? ≠ some 'p') :
    scanHook percent pid (c :: cs) = c :: scanHook percent pid cs := by
  rw [scanHook.eq_def]
  split
  · next heq =>
    cases heq
    exact absurd rfl (h rfl).1
  · next heq =>
    cases heq
    exact absurd rfl (h rfl).2
  · next heq =>
    cases heq
    rfl
  · next heq => cases heq

/-- The text after the first replacement goes on with the next character, unless that is a
    percent sign before another. -/
theorem scanHook_head {percent pid cs : List Char} (h : cs.head? ≠ some '%') :
    (scanHook percent pid cs).head? = cs.head? := by
  cases cs with
  | nil => rfl
  | cons c cs =>
    have hc : c ≠ '%' := by
      intro hc
      rw [hc] at h
      exact h rfl
    rw [scanHook_copy fun heq => absurd heq hc]
    rfl

theorem pair_differs {a b c : Char} {cs : List Char} (h : c = a → cs.head? ≠ some b) :
    [a, b].isPrefixOf (c :: cs) = false := by
  cases cs with
  | nil => simp [List.isPrefixOf]
  | cons d ds =>
    simp only [List.isPrefixOf, Bool.and_true, Bool.and_eq_false_iff, beq_eq_false_iff_ne]
    by_cases hc : a = c
    · right
      intro hd
      exact h hc.symm (by rw [hd]; rfl)
    · exact .inl hc

/-- What the scan knows of a character that it copies. -/
theorem copied {c : Char} {cs : List Char} (hpercent : ∀ ds, c = '%' → cs = '%' :: ds → False)
    (hp : ∀ ds, c = '%' → cs = 'p' :: ds → False) :
    c = '%' → cs.head? ≠ some '%' ∧ cs.head? ≠ some 'p' := by
  intro hc
  constructor
  · intro h
    obtain ⟨ds, hds⟩ := List.head?_eq_some_iff.mp h
    exact hpercent ds hc hds
  · intro h
    obtain ⟨ds, hds⟩ := List.head?_eq_some_iff.mp h
    exact hp ds hc hds

/-- The first replacement: pairs of percent signs. -/
theorem first_eq_scan (s : List Char) :
    replaceFrom ['%', '%'] placeholder 0 s = scanHook placeholder ['%', 'p'] s := by
  induction s using scanHook.induct with
  | case1 cs ih => rw [scanHook, ← ih]; exact replaceFrom_match cs
  | case2 cs ih =>
    rw [scanHook, ← ih, replaceFrom_copy (by rfl)]
    exact congrArg ('%' :: ·) (replaceFrom_copy (by rfl))
  | case3 c cs hpercent hp ih =>
    have hcopy := copied hpercent hp
    rw [scanHook_copy hcopy, ← ih]
    exact replaceFrom_copy (pair_differs fun hc => (hcopy hc).1)
  | case4 => rfl

/-- The second replacement: the pid. A placeholder holds no percent sign. -/
theorem second_eq_scan (pid s : List Char) :
    replaceFrom ['%', 'p'] pid 0 (scanHook placeholder ['%', 'p'] s) =
      scanHook placeholder pid s := by
  induction s using scanHook.induct with
  | case1 cs ih =>
    rw [scanHook, scanHook, ← ih]
    exact replaceFrom_avoid (by simp [placeholder]) _
  | case2 cs ih =>
    rw [scanHook, scanHook, ← ih]
    exact replaceFrom_match _
  | case3 c cs hpercent hp ih =>
    have hcopy := copied hpercent hp
    rw [scanHook_copy hcopy, scanHook_copy hcopy, ← ih]
    refine replaceFrom_copy (pair_differs fun hc => ?_)
    obtain ⟨hne, hp⟩ := hcopy hc
    rw [scanHook_head hne]
    exact hp
  | case4 => rfl

/-- The third replacement: the placeholders, which are all the NULs there are. -/
theorem third_eq_scan {pid s : List Char} (hpid : ∀ c ∈ pid, c ≠ '\x00')
    (hs : ∀ c ∈ s, c ≠ '\x00') :
    replaceFrom placeholder ['%'] 0 (scanHook placeholder pid s) = scanHook ['%'] pid s := by
  induction s using scanHook.induct with
  | case1 cs ih =>
    rw [scanHook, scanHook, ← ih fun c hc => hs c (by simp [hc])]
    exact replaceFrom_match _
  | case2 cs ih =>
    rw [scanHook, scanHook, ← ih fun c hc => hs c (by simp [hc])]
    exact replaceFrom_avoid hpid _
  | case3 c cs hpercent hp ih =>
    have hcopy := copied hpercent hp
    have hc : ∀ d ∈ [c], d ≠ '\x00' := fun d hd => hs d (by simp [List.mem_singleton.mp hd])
    rw [scanHook_copy hcopy, scanHook_copy hcopy, ← ih fun d hd => hs d (List.mem_cons_of_mem _ hd)]
    exact replaceFrom_avoid hc _
  | case4 => rfl

theorem toString_nat_no_nul (n : Nat) : ∀ c ∈ (toString n).toList, c ≠ '\x00' := by
  intro c hc heq
  rw [Nat.toString_eq_repr, Nat.toList_repr] at hc
  have hdigit := Nat.isDigit_of_mem_toDigits (by decide) (by decide) hc
  rw [heq] at hdigit
  exact absurd hdigit (by decide)

theorem toString_pid_no_nul (pid : Int) : ∀ c ∈ (toString pid).toList, c ≠ '\x00' := by
  cases pid with
  | ofNat n => exact toString_nat_no_nul n
  | negSucc n =>
    intro c hc
    change c ∈ ("-" ++ toString (n + 1)).toList at hc
    rw [String.toList_append] at hc
    rcases List.mem_append.mp hc with hsign | hdigits
    · rw [List.mem_singleton.mp hsign]
      decide
    · exact toString_nat_no_nul (n + 1) c hdigits

theorem replaceAll_toList (s pat rep : String) :
    (replaceAll s pat rep).toList = replaceFrom pat.toList rep.toList 0 s.toList := by
  rw [replaceAll, String.toList_ofList]

/-- **Hook substitution is the left-to-right one**: `%%` is a percent sign, `%p` the pid, and
    everything else is copied. -/
theorem expansion_is_scan {cmd : String} (pid : Int) (h : '\x00' ∉ cmd.toList) :
    expandHookCmd cmd pid =
      String.ofList (scanHook ['%'] (toString pid).toList cmd.toList) := by
  have hcmd : ∀ c ∈ cmd.toList, c ≠ '\x00' := by
    intro c hc heq
    rw [heq] at hc
    exact h hc
  have hpair : "%%".toList = ['%', '%'] := by decide
  have hp : "%p".toList = ['%', 'p'] := by decide
  have hone : "%".toList = ['%'] := by decide
  have hplaceholder : "\x00PERCENT\x00".toList = placeholder := by decide
  rw [expandHookCmd, replaceAll, replaceAll_toList, replaceAll_toList, hpair, hp, hone,
    hplaceholder, first_eq_scan, second_eq_scan, third_eq_scan (toString_pid_no_nul pid) hcmd]

/-- In `%%PERCENT%%p` nothing is a `%p`. -/
theorem expansion_is_scan_kill : expandHookCmd "kill -9 %p # %%PERCENT%%p" 42 =
    String.ofList (scanHook ['%'] (toString (42 : Int)).toList
      "kill -9 %p # %%PERCENT%%p".toList) ∧
    String.ofList (scanHook ['%'] (toString (42 : Int)).toList
      "kill -9 %p # %%PERCENT%%p".toList) = "kill -9 42 # %PERCENT%p" :=
  ⟨expansion_is_scan 42 (by decide), by decide +kernel⟩

end Procguard
