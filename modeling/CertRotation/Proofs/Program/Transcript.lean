import CertRotation.Program

namespace CertRotation

/-- A request with the answer it got. -/
structure Exchange (I : Interface) where
  request : I.Request
  answer : I.Answer request

/-- The exchanges of a run, the first one first. -/
abbrev Transcript (I : Interface) := List (Exchange I)

namespace Program

variable {I : Interface} {α β ε : Type}

/-- A program makes the requests of a transcript, one after another, and ends with a value if they
are answered as listed. -/
inductive Yields : Program I α → Transcript I → α → Prop
  | done (value : α) : Yields (.done value) [] value
  | ask {request : I.Request} {next : I.Answer request → Program I α}
      {answer : I.Answer request} {rest : Transcript I} {value : α}
      (h : Yields (next answer) rest value) :
      Yields (.ask request next) (⟨request, answer⟩ :: rest) value

@[simp] theorem yields_done_iff {value result : α} {transcript : Transcript I} :
    Yields (.done value : Program I α) transcript result ↔ transcript = [] ∧ result = value := by
  constructor
  · intro h
    cases h
    exact ⟨rfl, rfl⟩
  · rintro ⟨rfl, rfl⟩
    exact .done _

@[simp] theorem yields_pure_iff {value result : α} {transcript : Transcript I} :
    Yields (pure value : Program I α) transcript result ↔ transcript = [] ∧ result = value :=
  yields_done_iff

theorem yields_ask_iff {request : I.Request} {next : I.Answer request → Program I α}
    {transcript : Transcript I} {result : α} :
    Yields (.ask request next) transcript result ↔
      ∃ answer rest, transcript = ⟨request, answer⟩ :: rest ∧
        Yields (next answer) rest result := by
  constructor
  · intro h
    cases h with
    | ask h => exact ⟨_, _, rfl, h⟩
  · rintro ⟨answer, rest, rfl, h⟩
    exact .ask h

@[simp] theorem yields_perform_iff {request : I.Request} {transcript : Transcript I}
    {result : I.Answer request} :
    Yields (perform request) transcript result ↔ transcript = [⟨request, result⟩] := by
  rw [perform, yields_ask_iff]
  constructor
  · rintro ⟨answer, rest, rfl, h⟩
    cases h
    rfl
  · rintro rfl
    exact ⟨result, [], rfl, .done result⟩

/-- A run of one program after another is a run of the first followed by a run of the second. -/
theorem yields_bind_iff {program : Program I α} {next : α → Program I β}
    {transcript : Transcript I} {result : β} :
    Yields (program >>= next) transcript result ↔
      ∃ value before after, transcript = before ++ after ∧
        Yields program before value ∧ Yields (next value) after result := by
  constructor
  · intro h
    induction program generalizing transcript with
    | done value => exact ⟨value, [], transcript, rfl, .done value, h⟩
    | ask request resume ih =>
        obtain ⟨answer, rest, rfl, hrest⟩ := yields_ask_iff.mp h
        obtain ⟨value, before, after, rfl, hbefore, hafter⟩ := ih answer hrest
        exact ⟨value, ⟨request, answer⟩ :: before, after, rfl, .ask hbefore, hafter⟩
  · rintro ⟨value, before, after, rfl, hbefore, hafter⟩
    induction hbefore with
    | done value => exact hafter
    | ask _ ih => exact .ask (ih hafter)

theorem yields_perform_bind_iff {request : I.Request} {next : I.Answer request → Program I β}
    {transcript : Transcript I} {result : β} :
    Yields (perform request >>= next) transcript result ↔
      ∃ answer rest, transcript = ⟨request, answer⟩ :: rest ∧ Yields (next answer) rest result :=
  yields_ask_iff

theorem yields_run_bind_iff {work : ExceptT ε (Program I) α}
    {next : α → ExceptT ε (Program I) β} {transcript : Transcript I} {result : Except ε β} :
    Yields (work >>= next).run transcript result ↔
      (∃ failure, result = .error failure ∧ Yields work.run transcript (.error failure)) ∨
      ∃ value before after, transcript = before ++ after ∧
        Yields work.run before (.ok value) ∧ Yields (next value).run after result := by
  rw [ExceptT.run_bind, yields_bind_iff]
  constructor
  · rintro ⟨value | value, before, after, rfl, hbefore, hafter⟩
    · obtain ⟨rfl, rfl⟩ := yields_pure_iff.mp hafter
      exact .inl ⟨value, rfl, by simpa using hbefore⟩
    · exact .inr ⟨value, before, after, rfl, hbefore, hafter⟩
  · rintro (⟨failure, rfl, h⟩ | ⟨value, before, after, rfl, hbefore, hafter⟩)
    · exact ⟨.error failure, transcript, [], by simp, h, by simp⟩
    · exact ⟨.ok value, before, after, rfl, hbefore, hafter⟩

theorem Yields.run_bind {work : ExceptT ε (Program I) α} {next : α → ExceptT ε (Program I) β}
    {before after : Transcript I} {value : α} {result : Except ε β}
    (h : Yields work.run before (.ok value)) (hnext : Yields (next value).run after result) :
    Yields (work >>= next).run (before ++ after) result :=
  yields_run_bind_iff.mpr (.inr ⟨value, before, after, rfl, h, hnext⟩)

theorem yields_run_lift_perform_bind_iff {request : I.Request}
    {next : I.Answer request → ExceptT ε (Program I) β} {transcript : Transcript I}
    {result : Except ε β} :
    Yields (ExceptT.lift (perform request) >>= next).run transcript result ↔
      ∃ answer rest, transcript = ⟨request, answer⟩ :: rest ∧
        Yields (next answer).run rest result :=
  yields_ask_iff

/-- What a program does depends on the answers alone: of two runs that begin alike neither goes on
where the other ends. -/
theorem Yields.unique {program : Program I α} {before before' rest rest' : Transcript I}
    {value value' : α} (h : program.Yields before value) (h' : program.Yields before' value')
    (heq : before ++ rest = before' ++ rest') :
    before = before' ∧ value = value' ∧ rest = rest' := by
  induction h generalizing before' with
  | done value =>
      cases h'
      exact ⟨rfl, rfl, heq⟩
  | ask hrest ih =>
      obtain ⟨answer, after, rfl, hafter⟩ := yields_ask_iff.mp h'
      obtain ⟨hexchange, htail⟩ := List.cons.inj heq
      cases hexchange
      obtain ⟨rfl, rfl, rfl⟩ := ih hafter htail
      exact ⟨rfl, rfl, rfl⟩

/-- A program makes requests of one sort alone, whatever the answers. -/
def OnlyAsks (allowed : I.Request → Prop) : Program I α → Prop
  | done _ => True
  | ask request next => allowed request ∧ ∀ answer, (next answer).OnlyAsks allowed

variable {allowed : I.Request → Prop}

@[simp] theorem onlyAsks_pure (value : α) : (pure value : Program I α).OnlyAsks allowed := trivial

@[simp] theorem onlyAsks_perform_iff {request : I.Request} :
    (perform request).OnlyAsks allowed ↔ allowed request := by
  simp [perform, OnlyAsks]

theorem OnlyAsks.bind {program : Program I α} {next : α → Program I β}
    (h : program.OnlyAsks allowed) (hnext : ∀ value, (next value).OnlyAsks allowed) :
    (program >>= next).OnlyAsks allowed := by
  induction program with
  | done value => exact hnext value
  | ask request resume ih => exact ⟨h.1, fun answer => ih answer (h.2 answer)⟩

theorem OnlyAsks.run_bind {work : ExceptT ε (Program I) α}
    {next : α → ExceptT ε (Program I) β} (h : work.run.OnlyAsks allowed)
    (hnext : ∀ value, (next value).run.OnlyAsks allowed) :
    (work >>= next).run.OnlyAsks allowed := by
  rw [ExceptT.run_bind]
  apply h.bind
  rintro (failure | value)
  · exact onlyAsks_pure _
  · exact hnext value

theorem OnlyAsks.mem {program : Program I α} {transcript : Transcript I} {result : α}
    (h : program.OnlyAsks allowed) (hyields : program.Yields transcript result) :
    ∀ exchange ∈ transcript, allowed exchange.request := by
  induction hyields with
  | done value => simp
  | ask hrest ih =>
      intro exchange hmem
      rcases List.mem_cons.mp hmem with rfl | hmem
      · exact h.1
      · exact ih (h.2 _) exchange hmem

/-- A program makes requests of one sort alone and ends with values of one sort, whatever the
answers. -/
def Ensures (allowed : I.Request → Prop) (ends : α → Prop) : Program I α → Prop
  | done value => ends value
  | ask request next => allowed request ∧ ∀ answer, (next answer).Ensures allowed ends

theorem Ensures.bind {between : α → Prop} {ends : β → Prop} {program : Program I α}
    {next : α → Program I β} (h : program.Ensures allowed between)
    (hnext : ∀ value, between value → (next value).Ensures allowed ends) :
    (program >>= next).Ensures allowed ends := by
  induction program with
  | done value => exact hnext value h
  | ask request resume ih => exact ⟨h.1, fun answer => ih answer (h.2 answer)⟩

theorem OnlyAsks.ensures {program : Program I α} (h : program.OnlyAsks allowed) :
    program.Ensures allowed fun _ => True := by
  induction program with
  | done value => trivial
  | ask request resume ih => exact ⟨h.1, fun answer => ih answer (h.2 answer)⟩

theorem OnlyAsks.mono {allowed' : I.Request → Prop} {program : Program I α}
    (h : program.OnlyAsks allowed) (hallowed : ∀ request, allowed request → allowed' request) :
    program.OnlyAsks allowed' := by
  induction program with
  | done value => trivial
  | ask request resume ih =>
      exact ⟨hallowed request h.1, fun answer => ih answer (h.2 answer)⟩

end Program

end CertRotation
