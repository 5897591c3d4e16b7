/-
The `pre-receive` hook of a repository: a shell script that reads the ref updates of a push line by line, and lets through
only updates of the proposals of one workspace.
-/
import DimProofs.Lib.Pattern

namespace Dim.Writes

abbrev Text := List Char

/-- A ref update of a push; an object id of zeros stands for no object. -/
structure Command where
  (old new ref : Text)

/-! ## The script -/

/-- `[A-Za-z0-9_-]`. -/
def workspaceChar : Pattern.CharClass := fun c => Pattern.alphanumeric c || c = '_' || c = '-'

/-- `[-A-Za-z0-9._/]`. -/
def proposalChar : Pattern.CharClass := fun c => Pattern.alphanumeric c || c = '.' || c = '_' || c = '/' || c = '-'

def proposals : Text := "refs/heads/proposals/".toList

/-- `allowed="refs/heads/proposals/$workspace/"`. -/
def allowed (workspace : Text) : Text := proposals ++ workspace ++ ['/']

/-- `""|*[!-A-Za-z0-9._/]*|.*|*/.*|*..*|*//*|*.lock|*/|*.`. -/
def unsafeProposal (proposal : Text) : Bool :=
  proposal = [] || !proposal.all proposalChar || proposal.head? = some '.' || decide ("/.".toList <:+: proposal) ||
    decide ("..".toList <:+: proposal) || decide ("//".toList <:+: proposal) || ".lock".toList.isSuffixOf proposal ||
    proposal.getLast? = some '/' || proposal.getLast? = some '.'

/-- The body of the loop; it exits with 1 where it is false. -/
def permits (workspace : Text) (command : Command) : Bool :=
  (allowed workspace).isPrefixOf command.ref && !unsafeProposal (command.ref.drop (allowed workspace).length) &&
    command.new.any (· ≠ '0')

def blank (c : Char) : Bool := c = ' '

/-- `IFS=' ' read -r old new ref`. -/
def readCommand (line : Text) : Command :=
  let line := line.dropWhile blank
  let rest := (line.dropWhile (!blank ·)).dropWhile blank
  let ref := (rest.dropWhile (!blank ·)).dropWhile blank
  { old := line.takeWhile (!blank ·), new := rest.takeWhile (!blank ·), ref := (ref.reverse.dropWhile blank).reverse }

/-- The lines that `read` succeeds on: those that a newline ends. -/
def inputLines (stdin : Text) : List Text := (stdin.splitOn '\n').dropLast

/-- The hook, for the variable `DIM_NATIVE_GIT_WORKSPACE_ID` and its standard input: whether it exits with 0. -/
def preReceive (workspaceId : Option Text) (stdin : Text) : Bool :=
  let workspace := workspaceId.getD []
  workspace ≠ [] && workspace.all workspaceChar && (inputLines stdin).all fun line => permits workspace (readCommand line)

/-! ## The input of the hook -/

/-- `<old-value> SP <new-value> SP <ref-name>`. -/
def Command.line (command : Command) : Text := command.old ++ ' ' :: (command.new ++ ' ' :: command.ref)

def hookInput (commands : List Command) : Text := commands.flatMap fun command => command.line ++ ['\n']

/-- A text that is one word of a line. -/
def Word (text : Text) : Prop := text ≠ [] ∧ ' ' ∉ text ∧ '\n' ∉ text

instance (text : Text) : Decidable (Word text) := inferInstanceAs (Decidable (_ ∧ _ ∧ _))

/-- The values are object ids, and the ref is a name that Git allows: none has a blank or a newline. -/
structure Command.Plain (command : Command) : Prop where
  old : Word command.old
  new : Word command.new
  ref : Word command.ref

theorem takeWhile_word {word rest : Text} (h : ' ' ∉ word) :
    (word ++ ' ' :: rest).takeWhile (!blank ·) = word ∧ (word ++ ' ' :: rest).dropWhile (!blank ·) = ' ' :: rest := by
  have hall : ∀ c ∈ word, (!blank c) = true := by
    intro c hc
    have hne : c ≠ ' ' := fun heq => h (heq ▸ hc)
    simp [blank, hne]
  constructor
  · rw [List.takeWhile_append_of_pos hall]
    simp [blank]
  · rw [List.dropWhile_append_of_pos hall]
    simp [blank]

theorem dropWhile_blank {word : Text} (rest : Text) (hne : word ≠ []) (h : ' ' ∉ word) :
    (word ++ rest).dropWhile blank = word ++ rest := by
  obtain ⟨c, word, rfl⟩ := List.exists_cons_of_ne_nil hne
  have hc : blank c = false := decide_eq_false fun heq => h (heq ▸ List.mem_cons_self)
  rw [List.cons_append, List.dropWhile_cons, if_neg (by rw [hc]; nofun)]

/-- A line is read as the command that it was written of. -/
theorem readCommand_line {command : Command} (h : command.Plain) : readCommand command.line = command := by
  obtain ⟨old, new, ref⟩ := command
  obtain ⟨⟨hold, hold', -⟩, ⟨hnew, hnew', -⟩, href, href', -⟩ := h
  dsimp only at hold hold' hnew hnew' href href'
  have hline : (old ++ ' ' :: (new ++ ' ' :: ref)).dropWhile blank = old ++ ' ' :: (new ++ ' ' :: ref) :=
    dropWhile_blank _ hold hold'
  have hrest : (' ' :: (new ++ ' ' :: ref)).dropWhile blank = new ++ ' ' :: ref := by
    rw [List.dropWhile_cons_of_pos rfl]
    exact dropWhile_blank _ hnew hnew'
  have hlast : (' ' :: ref).dropWhile blank = ref := by
    rw [List.dropWhile_cons_of_pos rfl]
    simpa using dropWhile_blank [] href href'
  have htrim : (ref.reverse.dropWhile blank).reverse = ref := by
    have hreverse := dropWhile_blank [] (List.reverse_ne_nil_iff.mpr href) (by simpa using href')
    rw [List.append_nil] at hreverse
    rw [hreverse, List.reverse_reverse]
  simp only [readCommand, Command.line, hline, (takeWhile_word hold').1, (takeWhile_word hold').2, hrest,
    (takeWhile_word hnew').1, (takeWhile_word hnew').2, hlast, htrim]

theorem notMem_line {command : Command} (h : command.Plain) : '\n' ∉ command.line := by
  simp only [Command.line, List.mem_append, List.mem_cons, not_or]
  exact ⟨h.old.2.2, by decide, h.new.2.2, by decide, h.ref.2.2⟩

/-- The lines of the hook's input are those of the commands. -/
theorem inputLines_hookInput : ∀ {commands : List Command}, (∀ command ∈ commands, command.Plain) →
    inputLines (hookInput commands) = commands.map Command.line
  | [], _ => rfl
  | command :: commands, h => by
    have hcons : hookInput (command :: commands) = command.line ++ '\n' :: hookInput commands := by
      simp [hookInput]
    have hrest := inputLines_hookInput fun c hc => h c (List.mem_cons_of_mem _ hc)
    rw [inputLines] at hrest
    rw [inputLines, hcons, List.splitOn_append_cons_self_of_not_mem (notMem_line (h command List.mem_cons_self)),
      List.dropLast_cons_of_ne_nil (List.splitOn_ne_nil _ _), hrest, List.map_cons]

/-- What the hook lets through: every update is of the workspace's proposals. -/
theorem preReceive_permits {workspaceId : Option Text} {commands : List Command}
    (hplain : ∀ command ∈ commands, command.Plain)
    (h : preReceive workspaceId (hookInput commands) = true) {command : Command} (hcommand : command ∈ commands) :
    permits (workspaceId.getD []) command = true := by
  simp only [preReceive, inputLines_hookInput hplain, Bool.and_eq_true, List.all_eq_true] at h
  have hline := h.2 command.line (List.mem_map.mpr ⟨command, hcommand, rfl⟩)
  rwa [readCommand_line (hplain command hcommand)] at hline

/-! ## Namespaces -/

/-- The proposals of two workspaces are apart. -/
theorem allowed_disjoint {workspace workspace' ref : Text} (h : '/' ∉ workspace) (h' : '/' ∉ workspace')
    (hne : workspace ≠ workspace') (href : allowed workspace <+: ref) : ¬ allowed workspace' <+: ref := by
  rintro ⟨rest', hrest'⟩
  obtain ⟨rest, rfl⟩ := href
  simp only [allowed, List.append_assoc, List.append_cancel_left_eq, List.cons_append, List.nil_append] at hrest'
  have hsplit := congrArg (List.splitOn '/') hrest'
  rw [List.splitOn_append_cons_self_of_not_mem h, List.splitOn_append_cons_self_of_not_mem h'] at hsplit
  exact hne (List.cons.inj hsplit).1.symm

end Dim.Writes
