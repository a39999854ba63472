import Reckoner.Files

namespace Reckoner

variable {α β : Type}

namespace FileAction

/-- What comes of an action on files, and the files after it. -/
def outcome (x : FileAction α) (files : Files) : Except FileFault α × Files := x.run files

theorem outcome_bind (x : FileAction α) (f : α → FileAction β) (files : Files) :
    outcome (x >>= f) files = match outcome x files with
      | (.ok a, files') => outcome (f a) files'
      | (.error fault, files') => (.error fault, files') := by
  show (do let a ← x.run; _ : StateM Files _) files = _
  simp only [outcome, bind, ExceptT.run, StateT.bind]
  rcases x files with ⟨_ | _, files'⟩ <;> rfl

theorem outcome_bind_of_ok {x : FileAction α} {a : α} {files files' : Files}
    (ran : outcome x files = (.ok a, files')) (f : α → FileAction β) :
    outcome (x >>= f) files = outcome (f a) files' := by
  rw [outcome_bind, ran]

theorem outcome_bind_of_error {x : FileAction α} {fault : FileFault} {files files' : Files}
    (failed : outcome x files = (.error fault, files')) (f : α → FileAction β) :
    outcome (x >>= f) files = (.error fault, files') := by
  rw [outcome_bind, failed]

end FileAction

namespace Files

variable {files : Files} {path other : Path}

theorem lookup_replaced (path other : Path) (node : Node) (nodes : List (Path × Node)) :
    (nodes.map fun e => if e.1 == path then (path, node) else e).lookup other =
      if other = path then (nodes.lookup path).map fun _ => node else nodes.lookup other := by
  induction nodes with
  | nil => simp
  | cons e nodes ih => by_cases here : e.1 = path <;> by_cases same : other = path <;> grind

theorem any_path_iff {nodes : List (Path × Node)} :
    nodes.any (·.1 == path) = true ↔ nodes.lookup path ≠ none := by
  induction nodes with
  | nil => simp
  | cons e nodes ih => by_cases here : e.1 = path <;> grind

def Inner (path : Path) : Prop := path ≠ [] ∧ path ≠ ["/"]

theorem inner_of_node? (notDirectory : files.node? path ≠ some .directory) : Inner path := by
  constructor <;> rintro rfl <;> exact notDirectory rfl

theorem node?_put (inner : Inner path) (node : Node) :
    (files.put path node).node? other = if other = path then some node else files.node? other := by
  by_cases root : other.isEmpty || other == ["/"]
  · have different : other ≠ path := by
      rintro rfl
      simp only [inner.1, inner.2, Bool.or_eq_true, List.isEmpty_iff, beq_iff_eq, or_self] at root
    rw [node?, node?, if_pos root, if_pos root, if_neg different]
  · rw [node?, node?, if_neg root, if_neg root, put]
    by_cases there : files.nodes.any (·.1 == path) = true
    · rw [if_pos there]
      obtain ⟨before, found⟩ := Option.ne_none_iff_exists'.mp (any_path_iff.mp there)
      simp only [lookup_replaced, found, Option.map_some]
    · rw [if_neg there, List.lookup_append]
      have missing : files.nodes.lookup path = none :=
        Decidable.of_not_not fun found => there (any_path_iff.mpr (by simpa using found))
      by_cases same : other = path
      · simp [same, missing]
      · simp [same, List.lookup_cons, beq_eq_false_iff_ne.mpr same]

theorem mem_ancestry {p : Path} : p ∈ ancestry path ↔ p ≠ [] ∧ p <+: path := by
  simp only [ancestry, List.mem_map, List.mem_range]
  constructor
  · rintro ⟨n, below, rfl⟩
    exact ⟨by simp [← List.length_pos_iff]; omega, List.take_prefix _ _⟩
  · rintro ⟨nonempty, beginning⟩
    have positive := List.length_pos_iff.mpr nonempty
    have bound := beginning.length_le
    refine ⟨p.length - 1, by omega, ?_⟩
    rw [Nat.sub_add_cancel positive]
    exact (List.prefix_iff_eq_take.mp beginning).symm

theorem put_refusals (files : Files) (path : Path) (node : Node) :
    (files.put path node).refusals = files.refusals := by
  unfold put
  split <;> rfl

theorem makeDirectory_outcome {p : Path} (noFile : ∀ content, files.node? p ≠ some (.file content))
    (fault : FileFault) :
    ∃ files', (do
        match (← getThe Files).node? p with
        | some .directory => pure ()
        | some (.file _) => throw fault
        | none => modify (·.put p .directory) : FileAction Unit).outcome files = (.ok (), files') ∧
      files'.refusals = files.refusals ∧
      ∀ other, files'.node? other = if other = p then some .directory else files.node? other := by
  have here : (getThe Files : FileAction Files).outcome files = (.ok files, files) := rfl
  rw [FileAction.outcome_bind_of_ok here]
  rcases found : files.node? p with _ | content | _
  · have inner : Inner p := inner_of_node? (by rw [found]; nofun)
    exact ⟨_, rfl, put_refusals files p .directory, fun _ => node?_put inner .directory⟩
  · exact absurd found (noFile content)
  · refine ⟨files, rfl, rfl, fun other => ?_⟩
    split
    · rename_i same
      rw [same, found]
    · rfl

def Passable (files : Files) (path : Path) : Prop :=
  ∀ p ∈ ancestry path, ∀ content, files.node? p ≠ some (.file content)

theorem makeDirectories_outcome (passable : files.Passable path) :
    ∃ files', (makeDirectories path).outcome files = (.ok (), files') ∧
      files'.refusals = files.refusals ∧
      ∀ other, files'.node? other =
        if other ∈ ancestry path then some .directory else files.node? other := by
  unfold Passable at passable
  unfold makeDirectories
  -- a directory after the other, from the first one on
  generalize ancestry path = ps at passable
  induction ps generalizing files with
  | nil => exact ⟨files, rfl, rfl, fun _ => (if_neg List.not_mem_nil).symm⟩
  | cons p ps ih =>
    obtain ⟨files₁, ran, refusals, nodes⟩ := makeDirectory_outcome (passable p List.mem_cons_self)
      (if p = path then .exists path else .notDirectory path)
    have passable₁ : ∀ q ∈ ps, ∀ content, files₁.node? q ≠ some (.file content) := by
      intro q member content
      rw [nodes]
      split
      · nofun
      · exact passable q (List.mem_cons_of_mem p member) content
    obtain ⟨files', ran', refusals', nodes'⟩ := ih passable₁
    refine ⟨files', ?_, refusals'.trans refusals, fun other => ?_⟩
    · exact (FileAction.outcome_bind_of_ok ran _).trans ran'
    · rw [nodes', nodes]
      by_cases same : other = p <;> by_cases behind : other ∈ ps <;> simp [same, behind]

def Willing (files : Files) : Prop := ∀ refused ∈ files.refusals, refused = false

theorem permit_outcome (willing : files.Willing) (path : Path) :
    ∃ files', (permit path).outcome files = (.ok (), files') ∧ files'.Willing ∧
      files'.nodes = files.nodes := by
  have willing' : ({ files with refusals := files.refusals.tail } : Files).Willing :=
    fun refused member => willing refused (List.mem_of_mem_tail member)
  have permitted : files.refusals.headD false = false := by
    rcases same : files.refusals with _ | ⟨refused, rest⟩
    · rfl
    · exact willing refused (same ▸ List.mem_cons_self)
  refine ⟨_, ?_, willing', rfl⟩
  unfold permit
  rw [FileAction.outcome_bind_of_ok (rfl : (getThe Files : FileAction Files).outcome files = _)]
  simp only [permitted]
  rfl

/-- A file can stand at the path: no file is in its way, and it is no directory. -/
structure Takes (files : Files) (path : Path) : Prop where
  passable : files.Passable path.dropLast
  noDirectory : files.node? path ≠ some .directory

theorem not_mem_ancestry_dropLast (inner : Inner path) : path ∉ ancestry path.dropLast := by
  intro member
  have bound := (mem_ancestry.mp member).2.length_le
  have positive := List.length_pos_iff.mpr inner.1
  rw [List.length_dropLast] at bound
  omega

/-- The text of the file at a path, empty if there is none. -/
def content (files : Files) (path : Path) : String := (files.text? path).getD ""

theorem node?_empty (path : Path) :
    empty.node? path = if path.isEmpty || path == ["/"] then some .directory else none := rfl

theorem content_empty (path : Path) : empty.content path = "" := by
  rw [content, text?, node?_empty]
  split
  · rename_i found
    split at found <;> cases found
  · rfl

theorem append_outcome (takes : files.Takes path) (willing : files.Willing) (added : String) :
    ∃ files', (append path added).outcome files = (.ok (), files') ∧ files'.Willing ∧
      ∀ other, files'.node? other =
        if other = path then some (.file (files.content path ++ added))
        else if other ∈ ancestry path.dropLast then some .directory else files.node? other := by
  have inner := inner_of_node? takes.noDirectory
  obtain ⟨files₁, made, refusals, nodes⟩ := makeDirectories_outcome takes.passable
  have willing₁ : files₁.Willing := by
    unfold Willing
    rw [refusals]
    exact willing
  obtain ⟨files₂, permitted, willing₂, same⟩ := permit_outcome willing₁ path
  have nodes₂ (other : Path) : files₂.node? other =
      if other ∈ ancestry path.dropLast then some .directory else files.node? other := by
    rw [← nodes, node?, node?, same]
  have before : files₂.node? path = files.node? path := by
    rw [nodes₂, if_neg (not_mem_ancestry_dropLast inner)]
  refine ⟨files₂.put path (.file (files.content path ++ added)), ?_, ?_, fun other => ?_⟩
  · unfold append
    rw [FileAction.outcome_bind_of_ok made, FileAction.outcome_bind_of_ok permitted,
      FileAction.outcome_bind_of_ok (rfl : (getThe Files : FileAction Files).outcome files₂ = _),
      before, content, text?]
    rcases found : files.node? path with _ | text | _
    · simp only [Option.getD_none, String.empty_append]
      rfl
    · rfl
    · exact absurd found takes.noDirectory
  · unfold Willing
    rw [put_refusals]
    exact willing₂
  · rw [node?_put inner, nodes₂]

/-- An action that changes no text of a file, whatever comes of it. -/
def Quiet (x : FileAction α) : Prop :=
  ∀ files other, (x.outcome files).2.content other = files.content other

theorem Quiet.bind {x : FileAction α} {f : α → FileAction β} (first : Quiet x)
    (second : ∀ a, Quiet (f a)) : Quiet (x >>= f) := by
  intro files other
  have before := first files other
  rcases ran : x.outcome files with ⟨fault | a, files'⟩ <;> rw [ran] at before
  · rw [FileAction.outcome_bind_of_error ran]
    exact before
  · rw [FileAction.outcome_bind_of_ok ran]
    exact (second a files' other).trans before

theorem quiet_makeDirectories (path : Path) : Quiet (makeDirectories path) := by
  unfold makeDirectories
  generalize ancestry path = ps
  induction ps with
  | nil => exact fun _ _ => rfl
  | cons p ps ih =>
    refine Quiet.bind (fun files other => ?_) fun _ => ih
    rw [FileAction.outcome_bind_of_ok (rfl : (getThe Files : FileAction Files).outcome files = _)]
    rcases found : files.node? p with _ | _ | _
    -- a directory has no text, and neither has a path where nothing stands
    · show (files.put p .directory).content other = _
      unfold content text?
      rw [node?_put (inner_of_node? (by rw [found]; nofun))]
      by_cases same : other = p
      · rw [if_pos same, same, found]
      · rw [if_neg same]
    · rfl
    · rfl

theorem quiet_permit (path : Path) : Quiet (permit path) := by
  intro files other
  unfold permit
  rw [FileAction.outcome_bind_of_ok (rfl : (getThe Files : FileAction Files).outcome files = _)]
  cases files.refusals.headD false <;> rfl

def Extended (files : Files) (paths : List Path) (added : String)
    (after : Except FileFault Unit × Files) : Prop :=
  ∃ reached, reached <+: paths ∧ (after.1 = .ok () ↔ reached = paths) ∧
    ∀ other, after.2.content other = files.content other ++ if other ∈ reached then added else ""

theorem extended_nil (files : Files) (added : String) : files.Extended [] added (.ok (), files) :=
  ⟨[], List.prefix_rfl, ⟨fun _ => rfl, fun _ => rfl⟩, fun other => by simp⟩

theorem extended_of_error {files' : Files} (fault : FileFault) (p : Path) (ps : List Path)
    (added : String) (same : ∀ other, files'.content other = files.content other) :
    files.Extended (p :: ps) added (.error fault, files') :=
  ⟨[], List.nil_prefix, ⟨nofun, nofun⟩, fun other => by simp [same]⟩

theorem content_put (inner : Inner path) (text : String) :
    (files.put path (.file text)).content other = if other = path then text else files.content other := by
  unfold content text?
  rw [node?_put inner]
  by_cases same : other = path
  · rw [if_pos same, if_pos same]
    rfl
  · rw [if_neg same, if_neg same]

def addText (path : Path) (added : String) : FileAction Unit := do
  match (← getThe Files).node? path with
  | some .directory => throw (.isDirectory path)
  | some (.file before) => modify (·.put path (.file (before ++ added)))
  | none => modify (·.put path (.file added))

theorem append_eq (path : Path) (added : String) : append path added =
    (makeDirectories path.dropLast >>= fun _ => permit path) >>= fun _ => addText path added :=
  (bind_assoc ..).symm

theorem addText_outcome (files : Files) (path : Path) (added : String) :
    (addText path added).outcome files = (.error (.isDirectory path), files) ∨ Inner path ∧
      (addText path added).outcome files =
        (.ok (), files.put path (.file (files.content path ++ added))) := by
  unfold addText
  rw [FileAction.outcome_bind_of_ok (rfl : (getThe Files : FileAction Files).outcome files = _),
    content, text?]
  rcases found : files.node? path with _ | text | _
  · refine .inr ⟨inner_of_node? (by rw [found]; nofun), ?_⟩
    simp only [Option.getD_none, String.empty_append]
    rfl
  · exact .inr ⟨inner_of_node? (by rw [found]; nofun), rfl⟩
  · exact .inl rfl

theorem append_extended (files : Files) (path : Path) (added : String) :
    files.Extended [path] added ((append path added).outcome files) := by
  have quiet := (quiet_makeDirectories path.dropLast).bind (fun _ => quiet_permit path) files
  rw [append_eq]
  generalize (makeDirectories path.dropLast >>= fun _ => permit path) = x at quiet
  rcases ran : x.outcome files with ⟨fault | _, files'⟩ <;> rw [ran] at quiet
  · rw [FileAction.outcome_bind_of_error ran]
    exact extended_of_error fault path [] added quiet
  · rw [FileAction.outcome_bind_of_ok ran]
    rcases addText_outcome files' path added with blocked | ⟨inner, done⟩
    · rw [blocked]
      exact extended_of_error _ path [] added quiet
    · rw [done]
      refine ⟨[path], List.prefix_rfl, ⟨fun _ => rfl, fun _ => rfl⟩, fun other => ?_⟩
      rw [content_put inner, ← quiet other]
      by_cases same : other = path <;> simp [same]

theorem Extended.bind {x y : FileAction Unit} {p : Path} {ps : List Path} {added : String}
    (first : files.Extended [p] added (x.outcome files))
    (others : ∀ files' : Files, files'.Extended ps added (y.outcome files')) (different : p ∉ ps) :
    files.Extended (p :: ps) added ((x >>= fun _ => y).outcome files) := by
  rcases ran : x.outcome files with ⟨fault | _, files'⟩ <;> rw [ran] at first <;>
    obtain ⟨reached, beginning, done, contents⟩ := first
  · rw [FileAction.outcome_bind_of_error ran]
    refine extended_of_error fault p ps added fun other => ?_
    have none : reached = [] := by
      rcases List.prefix_cons_iff.mp beginning with none | ⟨rest, rfl, behind⟩
      · exact none
      · exact nomatch done.mpr (by rw [List.prefix_nil.mp behind])
    simpa [none] using contents other
  · rw [FileAction.outcome_bind_of_ok ran]
    cases done.mp rfl
    obtain ⟨reached', beginning', done', contents'⟩ := others files'
    refine ⟨p :: reached', (List.prefix_cons_inj p).mpr beginning', by simp [done'], fun other => ?_⟩
    rw [contents', contents, String.append_assoc]
    by_cases same : other = p
    · subst same
      have missing : other ∉ reached' := fun member => different (beginning'.subset member)
      simp [missing]
    · simp [same]

end Files

end Reckoner
