import FlowEngine.Lib.Program

namespace program

variable {State Op α β : Type} {Answer : Op → Type}

/-- A program that goes on with the result of another. -/
def Program.bind : Program Op Answer α → (α → Program Op Answer β) → Program Op Answer β
  | .ret result, f => f result
  | .call op next, f => .call op fun answer => (next answer).bind f

instance : Monad (Program Op Answer) where
  pure := .ret
  bind := Program.bind

instance : LawfulMonad (Program Op Answer) := by
  refine LawfulMonad.mk' _ ?_ ?_ ?_
  · intro α p
    change p.bind .ret = p
    induction p with
    | ret result => rfl
    | call op next ih => exact congrArg (Program.call op) (funext ih)
  · exact fun result f => rfl
  · intro α β γ p f g
    change (p.bind f).bind g = p.bind fun a => (f a).bind g
    induction p with
    | ret result => rfl
    | call op next ih => exact congrArg (Program.call op) (funext ih)

/-- The program of one operation. -/
def perform (op : Op) : Program Op Answer (Answer op) := .call op .ret

/-- How a program can end where any of its operations may fail, after its effect or without it.
The list has the operations that had their effects. -/
inductive Ends (apply : Semantics State Op Answer) : Program Op Answer α → State → List Op → Except String α → State → Prop where
  | ret (result : α) (s : State) : Ends apply (.ret result) s [] (.ok result) s
  | served {op : Op} {next : Answer op → Program Op Answer α} {s after last : State} {answer : Answer op} {effects : List Op}
      {result : Except String α} (happly : apply s op = .ok (answer, after))
      (hrest : Ends apply (next answer) after effects result last) : Ends apply (.call op next) s (op :: effects) result last
  | refused {op : Op} {next : Answer op → Program Op Answer α} {s : State} {e : String} (happly : apply s op = .error e) :
      Ends apply (.call op next) s [] (.error e) s
  | failed (op : Op) (next : Answer op → Program Op Answer α) (s : State) (e : String) :
      Ends apply (.call op next) s [] (.error e) s
  | failed_late (op : Op) (next : Answer op → Program Op Answer α) (s : State) (e : String) :
      Ends apply (.call op next) s [op] (.error e) (applied apply s op)

/-- Run a program alone, each of its operations being served. -/
def serve (apply : Semantics State Op Answer) : Program Op Answer α → State → Except String (α × State)
  | .ret result, s => .ok (result, s)
  | .call op next, s =>
    match apply s op with
    | .ok (answer, after) => serve apply (next answer) after
    | .error e => .error e

/-- Every operation that a program may call, whatever the answers. -/
def Calls (P : Op → Prop) : Program Op Answer α → Prop
  | .ret _ => True
  | .call op next => P op ∧ ∀ answer, Calls P (next answer)

section Calls

variable {P : Op → Prop}

theorem Calls.bind {p : Program Op Answer α} {f : α → Program Op Answer β} (hp : Calls P p) (hf : ∀ a, Calls P (f a)) :
    Calls P (p >>= f) := by
  change Calls P (p.bind f)
  induction p with
  | ret result => exact hf result
  | call op next ih => exact ⟨hp.1, fun answer => ih answer (hp.2 answer)⟩

theorem calls_perform {op : Op} (h : P op) : Calls P (perform op : Program Op Answer (Answer op)) := ⟨h, fun _ => trivial⟩

theorem calls_mapM {γ : Type} {list : List γ} {f : γ → Program Op Answer β} (h : ∀ a ∈ list, Calls P (f a)) :
    Calls P (list.mapM f) := by
  induction list with
  | nil => exact trivial
  | cons a rest ih =>
    rw [List.mapM_cons]
    refine (h a List.mem_cons_self).bind fun b => ?_
    exact (ih fun other hmem => h other (List.mem_cons_of_mem _ hmem)).bind fun _ => trivial

theorem calls_forM {γ : Type} {list : List γ} {f : γ → Program Op Answer PUnit} (h : ∀ a ∈ list, Calls P (f a)) :
    Calls P (list.forM f) := by
  induction list with
  | nil => exact trivial
  | cons a rest ih =>
    change Calls P (f a >>= fun _ => rest.forM f)
    exact (h a List.mem_cons_self).bind fun _ => ih fun other hmem => h other (List.mem_cons_of_mem _ hmem)

end Calls

section Ends

variable {apply : Semantics State Op Answer} {p : Program Op Answer α} {s last : State} {effects : List Op}

/-- The operations that had effects are those the program may call. -/
theorem Ends.effects_called {result : Except String α} (h : Ends apply p s effects result last) {P : Op → Prop}
    (hcalls : Calls P p) : ∀ op ∈ effects, P op := by
  induction h with
  | ret => exact fun op hmem => by cases hmem
  | served _ _ ih =>
    intro op hmem
    cases List.mem_cons.mp hmem with
    | inl heq => exact heq ▸ hcalls.1
    | inr hrest => exact ih (hcalls.2 _) op hrest
  | refused => exact fun op hmem => by cases hmem
  | failed => exact fun op hmem => by cases hmem
  | failed_late =>
    intro op hmem
    cases List.mem_singleton.mp hmem
    exact hcalls.1

/-- The state changes by these operations alone. -/
theorem Ends.last_eq {result : Except String α} (h : Ends apply p s effects result last) :
    last = effects.foldl (applied apply) s := by
  induction h with
  | ret => rfl
  | @served op _ s after _ _ _ _ happly _ ih =>
    have hafter : applied apply s op = after := by simp only [applied, happly]
    rw [ih, List.foldl_cons, hafter]
  | refused => rfl
  | failed => rfl
  | failed_late => rfl

/-- A program ends well exactly if each of its operations is served. -/
theorem Ends.served_of_ok {result : α} (h : Ends apply p s effects (.ok result) last) :
    serve apply p s = .ok (result, last) := by
  generalize hok : Except.ok result = ended at h
  induction h with
  | ret => cases hok; rfl
  | served happly _ ih => simp only [serve, happly, ih hok]
  | refused => cases hok
  | failed => cases hok
  | failed_late => cases hok

theorem exists_ends_of_served {result : α} (h : serve apply p s = .ok (result, last)) :
    ∃ effects, Ends apply p s effects (.ok result) last := by
  induction p generalizing s with
  | ret =>
    cases h
    exact ⟨[], .ret _ _⟩
  | call op next ih =>
    simp only [serve] at h
    split at h
    · rename_i answer after happly
      obtain ⟨effects, hrest⟩ := ih answer h
      exact ⟨op :: effects, .served happly hrest⟩
    · cases h

/-- What is known of a program all of whose operations are served is known of an end of it. -/
theorem exists_ends_of_map {view : α × State → β} {b : β} (h : (serve apply p s).map view = .ok b) :
    ∃ result last effects, Ends apply p s effects (.ok result) last ∧ view (result, last) = b := by
  cases hserved : serve apply p s with
  | error e =>
    rw [hserved] at h
    cases h
  | ok ended =>
    rw [hserved] at h
    cases h
    obtain ⟨effects, hends⟩ := exists_ends_of_served hserved
    exact ⟨ended.1, ended.2, effects, hends, rfl⟩

/-- A program that goes on with the result of another ends with it, or goes on. -/
theorem Ends.of_bind {f : α → Program Op Answer β} {result : Except String β} (h : Ends apply (p >>= f) s effects result last) :
    (∃ e, result = .error e ∧ Ends apply p s effects (.error e) last) ∨
      ∃ a mid first second, Ends apply p s first (.ok a) mid ∧ Ends apply (f a) mid second result last ∧
        effects = first ++ second := by
  change Ends apply (p.bind f) s effects result last at h
  induction p generalizing s effects with
  | ret a => exact .inr ⟨a, s, [], effects, .ret a s, h, rfl⟩
  | call op next ih =>
    rw [Program.bind] at h
    cases h with
    | served happly hrest =>
      obtain ⟨e, hresult, hended⟩ | ⟨a, mid, first, second, hfirst, hsecond, heffects⟩ := ih _ hrest
      · exact .inl ⟨e, hresult, .served happly hended⟩
      · exact .inr ⟨a, mid, op :: first, second, .served happly hfirst, hsecond, by rw [heffects, List.cons_append]⟩
    | refused happly => exact .inl ⟨_, rfl, .refused happly⟩
    | failed => exact .inl ⟨_, rfl, .failed _ _ _ _⟩
    | failed_late => exact .inl ⟨_, rfl, .failed_late _ _ _ _⟩

/-- One that goes on after another has ended well. -/
theorem Ends.bind {f : α → Program Op Answer β} {a : α} {mid : State} {first second : List Op} {result : Except String β}
    (hp : Ends apply p s first (.ok a) mid) (hf : Ends apply (f a) mid second result last) :
    Ends apply (p >>= f) s (first ++ second) result last := by
  change Ends apply (p.bind f) s (first ++ second) result last
  generalize hok : Except.ok a = ended at hp
  induction hp with
  | ret => cases hok; exact hf
  | served happly _ ih => exact .served happly (ih hf hok)
  | refused => cases hok
  | failed => cases hok
  | failed_late => cases hok

end Ends

section Serve

variable {apply : Semantics State Op Answer}

theorem serve_bind (p : Program Op Answer α) (f : α → Program Op Answer β) (s : State) :
    serve apply (p >>= f) s = serve apply p s >>= fun ended => serve apply (f ended.1) ended.2 := by
  change serve apply (p.bind f) s = _
  induction p generalizing s with
  | ret => rfl
  | call op next ih =>
    simp only [Program.bind, serve]
    cases happly : apply s op with
    | error e => rfl
    | ok answered => exact ih answered.1 answered.2

@[simp] theorem serve_pure (result : α) (s : State) : serve apply (pure result) s = .ok (result, s) := rfl

@[simp] theorem serve_perform (op : Op) (s : State) : serve apply (perform op) s = apply s op := by
  simp only [perform, serve]
  cases apply s op with
  | error e => rfl
  | ok answered => rfl

/-- A loop of programs that leave the state. -/
theorem serve_mapM {γ : Type} {list : List γ} {f : γ → Program Op Answer β} {g : γ → Except String β} {s : State}
    (h : ∀ a ∈ list, serve apply (f a) s = (g a).map fun b => (b, s)) :
    serve apply (list.mapM f) s = (list.mapM g).map fun bs => (bs, s) := by
  induction list with
  | nil => rfl
  | cons a rest ih =>
    rw [List.mapM_cons, List.mapM_cons, serve_bind, h a List.mem_cons_self]
    cases g a with
    | error e => rfl
    | ok b =>
      change serve apply (rest.mapM f >>= fun bs => pure (b :: bs)) s = _
      rw [serve_bind, ih fun other hmem => h other (List.mem_cons_of_mem _ hmem)]
      cases rest.mapM g with
      | error e => rfl
      | ok bs => rfl

end Serve

end program
