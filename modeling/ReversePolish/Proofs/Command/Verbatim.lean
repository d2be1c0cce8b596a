import ReversePolish.Proofs.Command.Argument
import ReversePolish.Proofs.Command.Working

/-!
# Words behind the command

What stands behind the command is meant as words, whatever it looks like.  But
each argument is looked at before the command is found, and one that does not
decide between flags is refused wherever it stands, also as a word.

All other words are taken as they are, and nothing before the command but the
settings that are made there has a say in what becomes of them.
-/

namespace ReversePolish

theorem Command.head?_name_ne
    (c : Command) :
    c.name.head? ≠ some '-' := by
  cases c <;> decide

/-! ### Settings -/

/-- What can be set before the command, by a flag in its short or its long form. -/
inductive Setting where
  | quiet (isShort : Bool)
  | verbose (isShort : Bool)
  | session (isShort : Bool) (path : Text)

namespace Setting

/-- The form of a flag. -/
def form (f : Flag) (isShort : Bool) : Text :=
  if isShort then f.short else f.long

theorem form_ne_separatorText
    (f : Flag) (isShort : Bool) :
    form f isShort ≠ Argument.separatorText := by
  cases isShort <;> cases f <;> decide

theorem roleOf_form
    (f : Flag) (isShort : Bool) :
    Argument.roleOf (form f isShort) = .ok (.flag ⟨f, isShort, none⟩) := by
  cases isShort <;> cases f <;> rfl

theorem classify_form
    (f : Flag) (isShort : Bool) (rest : List Text) :
    Argument.classify (form f isShort :: rest) =
      (Argument.classify rest).map (⟨form f isShort, .flag ⟨f, isShort, none⟩⟩ :: ·) :=
  Argument.classify_cons rest (form_ne_separatorText f isShort) (roleOf_form f isShort)

/-- The arguments that make a setting. -/
def arguments : Setting → List Text
  | quiet isShort => [form .quiet isShort]
  | verbose isShort => [form .verbose isShort]
  | session isShort path => [form .session isShort, path]

/-- The path that a setting gives. -/
def path? : Setting → Option Text
  | session _ path => some path
  | _ => none

def isQuiet : Setting → Bool
  | quiet _ => true
  | _ => false

def isVerbose : Setting → Bool
  | verbose _ => true
  | _ => false

end Setting

/-- Options with further settings: the last path that is given counts. -/
def Options.withSettings (options : Options) (settings : List Setting) : Options where
  session? := (settings.filterMap Setting.path?).getLast?.or options.session?
  verbose := options.verbose || settings.any Setting.isVerbose
  quiet := options.quiet || settings.any Setting.isQuiet

theorem Options.withSettings_cons
    (options : Options) (setting : Setting) (settings : List Setting) :
    options.withSettings (setting :: settings) =
      (options.withSettings [setting]).withSettings settings := by
  cases setting <;>
    simp [withSettings, Setting.path?, Setting.isVerbose, Setting.isQuiet, List.getLast?_cons]

theorem Options.withSettings_standard
    (settings : List Setting) :
    standard.withSettings settings =
      ⟨some ((settings.filterMap Setting.path?).getLast?.getD "session.json".toList),
        settings.any Setting.isVerbose, settings.any Setting.isQuiet⟩ := by
  simp [withSettings, standard]

namespace Demand

/-- What texts ask for behind those that gave the options. -/
def ofTextsFrom (options : Options) (texts : List Text) : Except Mistake Demand :=
  match Argument.classify texts with
  | .error a => .error (.ambiguous a)
  | .ok arguments => ofArgumentsFrom options [] arguments

theorem ofTexts_eq
    (texts : List Text) :
    ofTexts texts = ofTextsFrom .standard texts := rfl

/-- Texts that add the same arguments in front of any others change the options alone. -/
theorem ofTextsFrom_congr
    {options options' : Options} {texts rest : List Text} {f : List Argument → List Argument}
    (hclassify : Argument.classify texts = (Argument.classify rest).map f)
    (h : ∀ arguments, ofArgumentsFrom options [] (f arguments) =
      ofArgumentsFrom options' [] arguments) :
    ofTextsFrom options texts = ofTextsFrom options' rest := by
  rw [ofTextsFrom, ofTextsFrom, hclassify]
  cases Argument.classify rest with
  | error a => rfl
  | ok arguments => exact h arguments

section Flags

variable (options : Options) (unknown : List Text) (rest : List Argument) (t : Text)
variable (isShort : Bool)

theorem ofArgumentsFrom_quiet :
    ofArgumentsFrom options unknown (⟨t, .flag ⟨.quiet, isShort, none⟩⟩ :: rest) =
      ofArgumentsFrom (options.withSettings [.quiet isShort]) unknown rest := by
  have hoptions : options.withSettings [.quiet isShort] =
      Cluster.setSwitches ⟨[.quiet], .notNeeded⟩ options := by
    simp [Cluster.setSwitches, Options.withSettings, Setting.path?, Setting.isVerbose,
      Setting.isQuiet]
  rw [hoptions, ofArgumentsFrom]
  rfl

theorem ofArgumentsFrom_verbose :
    ofArgumentsFrom options unknown (⟨t, .flag ⟨.verbose, isShort, none⟩⟩ :: rest) =
      ofArgumentsFrom (options.withSettings [.verbose isShort]) unknown rest := by
  have hoptions : options.withSettings [.verbose isShort] =
      Cluster.setSwitches ⟨[.verbose], .notNeeded⟩ options := by
    simp [Cluster.setSwitches, Options.withSettings, Setting.path?, Setting.isVerbose,
      Setting.isQuiet]
  rw [hoptions, ofArgumentsFrom]
  rfl

theorem ofArgumentsFrom_session
    (path : Text) :
    ofArgumentsFrom options unknown
        (⟨t, .flag ⟨.session, isShort, none⟩⟩ :: ⟨path, .plain⟩ :: rest) =
      ofArgumentsFrom (options.withSettings [.session isShort path]) unknown rest := by
  have hoptions : options.withSettings [.session isShort path] =
      { Cluster.setSwitches ⟨[], .awaited⟩ options with session? := some path } := by
    simp [Cluster.setSwitches, Options.withSettings, Setting.path?, Setting.isVerbose,
      Setting.isQuiet]
  rw [hoptions, ofArgumentsFrom]
  rfl

end Flags

/-- A setting is made, whatever stands behind it. -/
theorem ofTextsFrom_setting
    (options : Options) (rest : List Text) {setting : Setting}
    (hpath : ∀ path, setting.path? = some path → path.head? ≠ some '-') :
    ofTextsFrom options (setting.arguments ++ rest) =
      ofTextsFrom (options.withSettings [setting]) rest := by
  cases setting with
  | quiet isShort =>
      exact ofTextsFrom_congr (Setting.classify_form .quiet isShort rest) fun arguments =>
        ofArgumentsFrom_quiet options [] arguments _ isShort
  | verbose isShort =>
      exact ofTextsFrom_congr (Setting.classify_form .verbose isShort rest) fun arguments =>
        ofArgumentsFrom_verbose options [] arguments _ isShort
  | session isShort path =>
      have hclassify : Argument.classify (Setting.form .session isShort :: path :: rest) =
          (Argument.classify rest).map fun arguments =>
            ⟨Setting.form .session isShort, .flag ⟨.session, isShort, none⟩⟩ ::
              ⟨path, .plain⟩ :: arguments := by
        rw [Setting.classify_form, Argument.classify_of_head? rest (hpath path rfl)]
        cases Argument.classify rest <;> rfl
      exact ofTextsFrom_congr hclassify fun arguments =>
        ofArgumentsFrom_session options [] arguments _ isShort path

/-- All settings are made, in their order. -/
theorem ofTextsFrom_settings
    (options : Options) (rest : List Text) {settings : List Setting}
    (hpaths : ∀ path ∈ settings.filterMap Setting.path?, path.head? ≠ some '-') :
    ofTextsFrom options (settings.flatMap Setting.arguments ++ rest) =
      ofTextsFrom (options.withSettings settings) rest := by
  induction settings generalizing options with
  | nil => simp [Options.withSettings]
  | cons setting settings ih =>
      have hpath : ∀ path, setting.path? = some path → path.head? ≠ some '-' := fun path h =>
        hpaths path (List.mem_filterMap.2 ⟨setting, List.mem_cons_self, h⟩)
      rw [List.flatMap_cons, List.append_assoc, ofTextsFrom_setting options _ hpath, ih,
        ← Options.withSettings_cons]
      intro path h
      obtain ⟨other, hmem, hother⟩ := List.mem_filterMap.1 h
      exact hpaths path (List.mem_filterMap.2 ⟨other, List.mem_cons_of_mem _ hmem, hother⟩)

theorem wordsOf_of_ne_separator
    {arguments : List Argument}
    (h : ∀ a ∈ arguments, a.role ≠ .separator) :
    wordsOf arguments = arguments.map Argument.text := by
  unfold wordsOf
  split
  · exact absurd rfl (h _ List.mem_cons_self)
  · rfl

/-- Behind the name of a command, texts that decide are its words. -/
theorem ofTextsFrom_command
    (options : Options) (command : Command) {words : List Text}
    (hseparator : ∀ w ∈ words, w ≠ Argument.separatorText)
    (hwords : ∀ w ∈ words, ¬ Argument.IsUndecided w) :
    ofTextsFrom options (command.name :: words) = .ok (.request ⟨options, command, words⟩) := by
  obtain ⟨arguments, hclassify, htexts, hroles⟩ := Argument.exists_classify hseparator hwords
  rw [ofTextsFrom, Argument.classify_of_head? words command.head?_name_ne, hclassify]
  change ofArgumentsFrom options [] (⟨command.name, .plain⟩ :: arguments) = _
  rw [ofArgumentsFrom, ofCommand, Command.ofName?_name, wordsOf_of_ne_separator hroles, htexts]
  rfl

/-- The first text behind a command that does not decide is refused. -/
theorem ofTextsFrom_of_isUndecided
    (options : Options) (command : Command) {before : List Text} {w : Text} (after : List Text)
    (hseparator : ∀ u ∈ before, u ≠ Argument.separatorText)
    (hbefore : ∀ u ∈ before, ¬ Argument.IsUndecided u)
    (hw : Argument.IsUndecided w) :
    ofTextsFrom options (command.name :: (before ++ w :: after)) =
      .error (.ambiguous ⟨w, Flag.all⟩) := by
  rw [ofTextsFrom, Argument.classify_of_head? _ command.head?_name_ne,
    Argument.classify_of_isUndecided after hseparator hbefore hw]
  rfl

end Demand

namespace Run

/-- **What stands behind the command is taken as words unless one of them does not decide between
flags.**  Then the expression of exactly these words is evaluated in the session of the path that
was given last; otherwise the first word that does not decide is refused and nothing is
evaluated. -/
theorem ofArguments_input
    (d : Disk) (picks : Picks) (tag : Nat) {settings : List Setting} {words : List Text}
    (hpaths : ∀ path ∈ settings.filterMap Setting.path?, path.head? ≠ some '-')
    (hwords : Argument.separatorText ∉ words) :
    let arguments := settings.flatMap Setting.arguments ++ Command.input.name :: words
    let path := (settings.filterMap Setting.path?).getLast?.getD "session.json".toList
    let quiet := settings.any Setting.isQuiet
    let verbose := settings.any Setting.isVerbose
    (Demand.ofTexts arguments = .ok (.request ⟨⟨some path, verbose, quiet⟩, .input, words⟩) ↔
        ∀ w ∈ words, ¬ Argument.IsUndecided w) ∧
      ((∀ w ∈ words, ¬ Argument.IsUndecided w) →
        ofArguments d picks tag arguments =
          working d (.ofText path) verbose picks tag fun s => Work.evaluating s quiet words) ∧
      ∀ before w after, words = before ++ w :: after →
        (∀ u ∈ before, ¬ Argument.IsUndecided u) → Argument.IsUndecided w →
          ofArguments d picks tag arguments = mistaken (.ambiguous ⟨w, Flag.all⟩) picks := by
  intro arguments path quiet verbose
  have hseparator : ∀ w ∈ words, w ≠ Argument.separatorText := by
    rintro w hw rfl
    exact hwords hw
  have hdemand : Demand.ofTexts arguments =
      Demand.ofTextsFrom ⟨some path, verbose, quiet⟩ (Command.input.name :: words) := by
    rw [Demand.ofTexts_eq, Demand.ofTextsFrom_settings .standard _ hpaths,
      Options.withSettings_standard]
  have htaken : (∀ w ∈ words, ¬ Argument.IsUndecided w) →
      Demand.ofTexts arguments = .ok (.request ⟨⟨some path, verbose, quiet⟩, .input, words⟩) :=
    fun hdecided => hdemand.trans (Demand.ofTextsFrom_command _ .input hseparator hdecided)
  have hrefused : ∀ before w after, words = before ++ w :: after →
      (∀ u ∈ before, ¬ Argument.IsUndecided u) → Argument.IsUndecided w →
        Demand.ofTexts arguments = .error (.ambiguous ⟨w, Flag.all⟩) := by
    rintro before w after hsplit hbefore hw
    rw [hdemand, hsplit]
    refine Demand.ofTextsFrom_of_isUndecided _ .input after ?_ hbefore hw
    exact fun u hu => hseparator u (hsplit ▸ List.mem_append_left _ hu)
  refine ⟨⟨fun hrequest w hmem hw => ?_, htaken⟩, fun hdecided => ?_, ?_⟩
  · obtain ⟨before, first, after, hsplit, hbefore, hfirst⟩ :=
      Argument.exists_first_isUndecided ⟨w, hmem, hw⟩
    rw [hrefused before first after hsplit hbefore hfirst] at hrequest
    cases hrequest
  · rw [ofArguments_of_request d picks tag (htaken hdecided)]
    exact ofRequest_input_eq_working d picks tag rfl words
  · intro before w after hsplit hbefore hw
    exact ofArguments_of_mistake d picks tag (by simp [arguments])
      (hrefused before w after hsplit hbefore hw)

/-- Words that look like flags are words, and the path that was given last is that of the session;
but an equals sign behind two hyphens is refused. -/
theorem ofArguments_input_flags :
    let settings : List Setting :=
      [.session true "a".toList, .quiet true, .session false "b".toList]
    let words : List Text := ["-q".toList, "-h".toList, "--session=x".toList, "-3".toList]
    Demand.ofTexts (settings.flatMap Setting.arguments ++ Command.input.name :: words) =
        .ok (.request ⟨⟨some "b".toList, false, true⟩, .input, words⟩) ∧
      (∀ d picks, ofArguments d picks 0
        (settings.flatMap Setting.arguments ++ Command.input.name :: words) =
          working d (.ofText "b".toList) false picks 0 fun s => Work.evaluating s true words) ∧
      ∀ d picks, ofArguments d picks 0
        (settings.flatMap Setting.arguments ++ Command.input.name :: ["-3".toList, "--=x".toList]) =
          mistaken (.ambiguous ⟨"--=x".toList, Flag.all⟩) picks := by
  intro settings words
  have hpaths : ∀ path ∈ settings.filterMap Setting.path?, path.head? ≠ some '-' := by
    decide
  refine ⟨?_, fun d picks => ?_, fun d picks => ?_⟩
  · exact (ofArguments_input ⟨[], []⟩ ⟨[], 0⟩ 0 hpaths (by decide)).1.2 (by decide)
  · exact (ofArguments_input d picks 0 hpaths (by decide)).2.1 (by decide)
  · exact (ofArguments_input d picks 0 hpaths (by decide)).2.2 ["-3".toList] _ [] rfl
      (by decide) (by decide)

/-- A word behind the command is refused as if it were a flag. -/
theorem ofArguments_refuses_word :
    let words : List Text := ["--=x".toList]
    let run := ofArguments ⟨[], []⟩ ⟨[], 0⟩ 0 (Command.input.name :: words)
    Argument.separatorText ∉ words ∧
      Demand.ofTexts (Command.input.name :: words) =
        .error (.ambiguous ⟨"--=x".toList, Flag.all⟩) ∧
      run.ending = .status 2 ∧
      run ≠ ofRequest ⟨[], []⟩ ⟨[], 0⟩ 0 ⟨.standard, .input, words⟩ := by
  decide +kernel

end Run

end ReversePolish
