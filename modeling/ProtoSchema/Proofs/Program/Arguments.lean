import ProtoSchema.CommandLine
/-!
# What a command line gives

Arguments are added to what has been given so far, and no path that is given is empty
(`outputDirectory_ne_empty`).
-/

namespace ProtoSchema.CommandLine

variable {g g' : Given} {text : String}

namespace Given

/-- The directory for the documents, if there is one so far, has a name. -/
def Proper (g : Given) : Prop := g.outputDirectory ≠ some ""

theorem Proper.addOperand (h : g.Proper) (ha : g.addOperand text = some g') : g'.Proper := by
  obtain ⟨path, -, rfl⟩ := Option.map_eq_some_iff.1 ha
  exact h

theorem Proper.addFile (h : g.Proper) (ha : g.addFile text = some g') : g'.Proper :=
  Option.some.inj ha ▸ h

theorem Proper.addFlag {f : Flag} (h : g.Proper) (ha : g.addFlag f = some g') : g'.Proper := by
  unfold Given.addFlag at ha
  split at ha
  · cases ha
  · exact Option.some.inj ha ▸ h

theorem proper_addOutputDirectory (ha : g.addOutputDirectory text = some g') : g'.Proper := by
  obtain ⟨path, hpath, rfl⟩ := Option.map_eq_some_iff.1 ha
  unfold path? at hpath
  split at hpath
  · next htext =>
    obtain rfl := Option.some.inj hpath
    intro hempty
    simp [Option.some.inj hempty] at htext
  · cases hpath

end Given

/-- What an argument leaves to be done keeps the paths from being empty. -/
def Effect.Proper : Effect → Prop
  | .complete g => g.Proper
  | .valueDue add => ∀ text g, add text = some g → g.Proper
  | .help | .endOfOptions => True

theorem withValue_proper {add : String → Option Given} (hadd : ∀ text g, add text = some g → g.Proper)
    {value : Option String} {e : Effect} (h : withValue add value = some e) : e.Proper := by
  cases value with
  | none => exact Option.some.inj h ▸ hadd
  | some text =>
    obtain ⟨g, hg, rfl⟩ := Option.map_eq_some_iff.1 h
    exact hadd text g hg

theorem Given.Proper.read (h : g.Proper) {argument : Argument} {e : Effect} (he : g.read argument = some e) :
    e.Proper := by
  have hfile : ∀ text g', g.addFile text = some g' → g'.Proper := fun _ _ ha => h.addFile ha
  unfold Given.read at he
  split at he
  · obtain ⟨g', hg', rfl⟩ := Option.map_eq_some_iff.1 he
    exact h.addOperand hg'
  · exact Option.some.inj he ▸ trivial
  · exact Option.some.inj he ▸ trivial
  · exact withValue_proper hfile he
  · exact withValue_proper (fun _ _ ha => proper_addOutputDirectory ha) he
  · obtain ⟨g', hg', rfl⟩ := Option.map_eq_some_iff.1 he
    obtain ⟨f, -, hf⟩ := Option.bind_eq_some_iff.1 hg'
    exact h.addFlag hf
  · cases he
  · exact Option.some.inj he ▸ trivial
  · exact withValue_proper hfile he
  · cases he

theorem foldlM_addOperand_proper {rest : List String} (h : g.Proper) (hr : rest.foldlM Given.addOperand g = some g') :
    g'.Proper := by
  induction rest generalizing g with
  | nil => exact Option.some.inj hr ▸ h
  | cons text rest ih =>
    obtain ⟨next, hnext, hr⟩ := Option.bind_eq_some_iff.1 hr
    exact ih (h.addOperand hnext) hr

theorem command?_outputDirectory {a : ConvertArguments} (h : g.Proper) (hc : g.command? = some (.convert a)) :
    a.outputDirectory ≠ some "" := by
  obtain ⟨path, -, hpath⟩ := Option.map_eq_some_iff.1 hc
  cases hpath
  exact h

theorem parseConvert_outputDirectory {rest : List String} {a : ConvertArguments} (h : g.Proper)
    (hp : parseConvert g rest = some (.convert a)) : a.outputDirectory ≠ some "" := by
  fun_induction parseConvert g rest with
  | case1 g => exact command?_outputDirectory h hp
  | case2 => cases hp
  | case3 => cases hp
  | case4 g text rest hread =>
    obtain ⟨g', hg', hp⟩ := Option.bind_eq_some_iff.1 hp
    exact command?_outputDirectory (foldlM_addOperand_proper h hg') hp
  | case5 g text rest g' hread ih => exact ih (h.read hread) hp
  | case6 => cases hp
  | case7 g text add hread value rest text' hvalue ih =>
    obtain ⟨g', hg', hp⟩ := Option.bind_eq_some_iff.1 hp
    exact ih g' (h.read hread _ _ hg') hp
  | case8 => cases hp

/-- The directory that a command names is not empty text. -/
theorem outputDirectory_ne_empty {arguments : List String} {a : ConvertArguments}
    (h : parse arguments = some (.convert a)) : a.outputDirectory ≠ some "" := by
  have hempty : Given.Proper {} := fun h => by cases h
  unfold parse at h
  split at h
  · cases h
  · split at h
    case h_1 => exact parseConvert_outputDirectory hempty h
    case h_2 => split at h <;> cases h
    case h_3 => split at h <;> cases h
    all_goals cases h

end ProtoSchema.CommandLine
