import GrpcStubs.Proofs.Halves

set_option autoImplicit false

namespace GrpcStubs
open Template Stub

/-- The function of method `i` has a reserved name, or the name of an earlier one. -/
def ClashesAt (reserved : List String) (methods : List Method) (i : Nat) : Prop :=
  ∃ method, methods[i]? = some method ∧
    (method.ident ∈ reserved ∨ method.ident ∈ (methods.take i).map Method.ident)

structure FirstClash (reserved : List String) (methods : List Method) (method : Method) (i : Nat) :
    Prop where
  isAt : methods[i]? = some method
  clashes : ClashesAt reserved methods i
  isFirst : ∀ j < i, ¬ ClashesAt reserved methods j

theorem clashesAt_zero (reserved : List String) (method : Method) (methods : List Method) :
    ClashesAt reserved (method :: methods) 0 ↔ method.ident ∈ reserved := by
  simp [ClashesAt]

theorem clashesAt_succ (reserved : List String) (method : Method) (methods : List Method) (i : Nat) :
    ClashesAt reserved (method :: methods) (i + 1) ↔
      ClashesAt (method.ident :: reserved) methods i := by
  simp only [ClashesAt, List.getElem?_cons_succ, List.take_succ_cons, List.map_cons, List.mem_cons]
  constructor
  · rintro ⟨found, hf, h | h | h⟩
    · exact ⟨found, hf, .inl (.inr h)⟩
    · exact ⟨found, hf, .inl (.inl h)⟩
    · exact ⟨found, hf, .inr h⟩
  · rintro ⟨found, hf, (h | h) | h⟩
    · exact ⟨found, hf, .inr (.inl h)⟩
    · exact ⟨found, hf, .inl h⟩
    · exact ⟨found, hf, .inr (.inr h)⟩

theorem clash?_cons (reserved : List String) (method : Method) (methods : List Method) :
    clash? reserved (method :: methods) =
      if method.ident ∈ reserved then some method
      else clash? (method.ident :: reserved) methods := by
  simp only [clash?, List.contains_iff_mem]

theorem clash?_eq_none_iff (reserved : List String) (methods : List Method) :
    clash? reserved methods = none ↔ ∀ i, ¬ ClashesAt reserved methods i := by
  induction methods generalizing reserved with
  | nil => simp [clash?, ClashesAt]
  | cons method methods ih =>
    rw [clash?_cons]
    by_cases hc : method.ident ∈ reserved
    · rw [if_pos hc]
      refine iff_of_false (by simp) fun h => ?_
      exact h 0 ((clashesAt_zero reserved method methods).mpr hc)
    · rw [if_neg hc, ih]
      constructor
      · intro h i
        cases i with
        | zero => exact fun h0 => hc ((clashesAt_zero reserved method methods).mp h0)
        | succ i => exact fun hs => h i ((clashesAt_succ reserved method methods i).mp hs)
      · exact fun h i hi => h (i + 1) ((clashesAt_succ reserved method methods i).mpr hi)

theorem clash?_eq_some_iff (reserved : List String) (methods : List Method) (found : Method) :
    clash? reserved methods = some found ↔ ∃ i, FirstClash reserved methods found i := by
  induction methods generalizing reserved with
  | nil =>
    refine iff_of_false (by simp [clash?]) ?_
    rintro ⟨i, h⟩
    simpa using h.isAt
  | cons method methods ih =>
    rw [clash?_cons]
    by_cases hc : method.ident ∈ reserved
    · have h0 := (clashesAt_zero reserved method methods).mpr hc
      rw [if_pos hc, Option.some.injEq]
      constructor
      · rintro rfl
        exact ⟨0, rfl, h0, fun j hj => absurd hj (Nat.not_lt_zero j)⟩
      · rintro ⟨i, h⟩
        cases i with
        | zero => simpa using h.isAt
        | succ i => exact absurd h0 (h.isFirst 0 (Nat.succ_pos i))
    · have h0 : ¬ ClashesAt reserved (method :: methods) 0 :=
        fun h => hc ((clashesAt_zero reserved method methods).mp h)
      rw [if_neg hc, ih]
      constructor
      · rintro ⟨i, h⟩
        refine ⟨i + 1, h.isAt, (clashesAt_succ _ _ _ i).mpr h.clashes, fun j hj => ?_⟩
        cases j with
        | zero => exact h0
        | succ j => exact fun hs => h.isFirst j (by omega) ((clashesAt_succ _ _ _ j).mp hs)
      · rintro ⟨i, h⟩
        cases i with
        | zero => exact absurd h.clashes h0
        | succ i =>
          refine ⟨i, h.isAt, (clashesAt_succ _ _ _ i).mp h.clashes, fun j hj hs => ?_⟩
          exact h.isFirst (j + 1) (by omega) ((clashesAt_succ _ _ _ j).mpr hs)

theorem clash?_nil_of_none {reserved : List String} {methods : List Method}
    (h : clash? reserved methods = none) : clash? [] methods = none := by
  rw [clash?_eq_none_iff] at h ⊢
  rintro i ⟨method, hm, hc⟩
  exact h i ⟨method, hm, .inr (hc.resolve_left List.not_mem_nil)⟩

def reservedNames (ctx : Context) : List String :=
  if ctx.options.buildClient then Client.commonFunctions else []

def firstHalf (ctx : Context) (service : Service) : List Step :=
  if ctx.options.buildClient then Client.steps ctx service else Server.steps ctx service

def Service.clashError (service : Service) (method : Method) : Error :=
  .nameClash service.fullName method.name method.ident

/-- The results that generating a service may have. -/
inductive Service.Outcome (ctx : Context) (service : Service) :
    Except Error (List String) → Prop where
  | idle (client : ctx.options.buildClient = false) (server : ctx.options.buildServer = false) :
    Outcome ctx service (.ok [])
  | clash {method : Method} {i : Nat}
    (asked : ctx.options.buildClient = true ∨ ctx.options.buildServer = true)
    (first : FirstClash (reservedNames ctx) service.methods method i)
    (silent : ∀ p : Printer,
      Step.printAll (firstHalf ctx service) p = (.error (service.clashError method), p)) :
    Outcome ctx service (.error (service.clashError method))
  | unmapped {message : Message}
    (asked : ctx.options.buildClient = true ∨ ctx.options.buildServer = true)
    (distinct : ∀ i, ¬ ClashesAt (reservedNames ctx) service.methods i)
    (first : service.messages.find? ctx.isUnmapped = some message) :
    Outcome ctx service (.error (.unmappedFile message.file message.name))
  | generated {client server : String}
    (asked : ctx.options.buildClient = true ∨ ctx.options.buildServer = true)
    (distinct : ∀ i, ¬ ClashesAt (reservedNames ctx) service.methods i)
    (mapped : ∀ message ∈ service.messages, ctx.isUnmapped message = false)
    (hclient : ctx.options.buildClient = true → Step.render (Client.steps ctx service) = .ok client)
    (hserver : ctx.options.buildServer = true → Step.render (Server.steps ctx service) = .ok server) :
    Outcome ctx service (.ok ((if ctx.options.buildClient then [client] else []) ++
      (if ctx.options.buildServer then [server] else [])))

theorem fragments_of_error {ctx : Context} {service : Service} {e : Error}
    (asked : ctx.options.buildClient = true ∨ ctx.options.buildServer = true)
    (h : Step.render (firstHalf ctx service) = .error e) : service.fragments ctx = .error e := by
  unfold Service.fragments Service.halves
  unfold firstHalf at h
  cases hc : ctx.options.buildClient with
  | true =>
    rw [hc, if_pos rfl] at h
    rw [if_pos rfl, List.singleton_append, List.mapM_cons, h]
    rfl
  | false =>
    rw [hc, if_neg Bool.false_ne_true] at h
    rw [if_neg Bool.false_ne_true, if_pos (asked.resolve_left (by simp [hc])), List.nil_append,
      List.mapM_cons, h]
    rfl

theorem firstHalf_cases {ctx : Context} {service : Service} {P : List String → List Step → Prop}
    (hclient : P Client.commonFunctions (Client.steps ctx service))
    (hserver : P [] (Server.steps ctx service)) : P (reservedNames ctx) (firstHalf ctx service) := by
  unfold reservedNames firstHalf
  cases ctx.options.buildClient with
  | true => exact hclient
  | false => exact hserver

theorem printAll_firstHalf_of_clash {ctx : Context} {service : Service} {method : Method}
    (h : clash? (reservedNames ctx) service.methods = some method) (p : Printer) :
    Step.printAll (firstHalf ctx service) p = (.error (service.clashError method), p) := by
  have hsteps : firstHalf ctx service = [.fail (service.clashError method)] := by
    revert h
    refine firstHalf_cases (P := fun reserved steps =>
      clash? reserved service.methods = some method → steps = [.fail (service.clashError method)])
      (fun h => ?_) fun h => ?_
    · rw [Client.steps, unlessClash, h]
      rfl
    · rw [Server.steps, unlessClash, h]
      rfl
  rw [hsteps, Step.printAll_eq_run, Step.traceAll_singleton, Step.trace, Trace.run_failed]
  rfl

theorem outcome_firstHalf {ctx : Context} {service : Service}
    (h : clash? (reservedNames ctx) service.methods = none) :
    (Step.traceAll (firstHalf ctx service)).outcome = unmappedOutcome ctx service.messages := by
  revert h
  exact firstHalf_cases (P := fun reserved steps => clash? reserved service.methods = none →
    (Step.traceAll steps).outcome = unmappedOutcome ctx service.messages)
    Client.outcome_steps Server.outcome_steps

theorem render_of_outcome_ok {steps : List Step} (h : (Step.traceAll steps).outcome = .ok ()) :
    ∃ text, Step.render steps = .ok text := by
  rw [Step.render_eq, h]
  exact ⟨_, rfl⟩

theorem render_of_outcome_error {steps : List Step} {e : Error}
    (h : (Step.traceAll steps).outcome = .error e) : Step.render steps = .error e := by
  rw [Step.render_eq, h]

theorem Service.Outcome.eq_fragments {ctx : Context} {service : Service}
    {result : Except Error (List String)} (h : service.Outcome ctx result) :
    service.fragments ctx = result := by
  cases h with
  | idle client server =>
    unfold Service.fragments Service.halves
    rw [client, server]
    rfl
  | clash asked first silent =>
    refine fragments_of_error asked ?_
    rw [Step.render, printed, silent]
  | unmapped asked distinct first =>
    refine fragments_of_error asked (render_of_outcome_error ?_)
    rw [outcome_firstHalf ((clash?_eq_none_iff _ _).mpr distinct), unmappedOutcome, first]
  | @generated client server asked distinct mapped hclient hserver =>
    unfold Service.fragments Service.halves
    cases hc : ctx.options.buildClient <;> cases hs : ctx.options.buildServer
    · rfl
    · change [Server.steps ctx service].mapM Step.render = _
      rw [List.mapM_cons, List.mapM_nil, hserver hs]
      rfl
    · change [Client.steps ctx service].mapM Step.render = _
      rw [List.mapM_cons, List.mapM_nil, hclient hc]
      rfl
    · change [Client.steps ctx service, Server.steps ctx service].mapM Step.render = _
      rw [List.mapM_cons, List.mapM_cons, List.mapM_nil, hclient hc, hserver hs]
      rfl

theorem Service.exists_outcome (ctx : Context) (service : Service) :
    ∃ result, service.Outcome ctx result := by
  by_cases asked : ctx.options.buildClient = true ∨ ctx.options.buildServer = true
  · cases hclash : clash? (reservedNames ctx) service.methods with
    | some method =>
      obtain ⟨i, first⟩ := (clash?_eq_some_iff _ _ _).mp hclash
      exact ⟨_, .clash asked first (printAll_firstHalf_of_clash hclash)⟩
    | none =>
      have distinct := (clash?_eq_none_iff _ _).mp hclash
      cases hfind : service.messages.find? ctx.isUnmapped with
      | some message => exact ⟨_, .unmapped asked distinct hfind⟩
      | none =>
        have mapped : ∀ message ∈ service.messages, ctx.isUnmapped message = false :=
          fun message hm => by simpa using List.find?_eq_none.mp hfind message hm
        have hok : unmappedOutcome ctx service.messages = .ok () := by rw [unmappedOutcome, hfind]
        -- Names that do not clash beside reserved ones do not clash without them either.
        have hserver := render_of_outcome_ok
          ((Server.outcome_steps (clash?_nil_of_none hclash)).trans hok)
        obtain ⟨server, hserver⟩ := hserver
        cases hc : ctx.options.buildClient with
        | false =>
          have hoff : ctx.options.buildClient = true → Step.render (Client.steps ctx service) = .ok "" :=
            fun h => absurd (hc.symm.trans h) Bool.false_ne_true
          exact ⟨_, .generated asked distinct mapped hoff fun _ => hserver⟩
        | true =>
          rw [reservedNames, hc, if_pos rfl] at hclash
          obtain ⟨client, hclient⟩ := render_of_outcome_ok
            ((Client.outcome_steps hclash).trans hok)
          exact ⟨_, .generated asked distinct mapped (fun _ => hclient) fun _ => hserver⟩
  · have hoff : ctx.options.buildClient = false ∧ ctx.options.buildServer = false := by
      simpa using asked
    exact ⟨_, .idle hoff.1 hoff.2⟩

/-- Generating a service has the outcome that its names and its messages decide, and the templates
    themselves never fail. -/
theorem fragments_eq_iff_outcome (ctx : Context) (service : Service) :
    (∀ result, service.fragments ctx = result ↔ service.Outcome ctx result) ∧
      (∀ name, service.fragments ctx ≠ .error (.unboundName name)) ∧
      (∀ detail, service.fragments ctx ≠ .error (.malformedTemplate detail)) := by
  obtain ⟨result, houtcome⟩ := service.exists_outcome ctx
  have hresult := houtcome.eq_fragments
  refine ⟨fun other => ⟨fun h => ?_, Service.Outcome.eq_fragments⟩, fun name h => ?_, fun detail h => ?_⟩
  · rw [← h, hresult]
    exact houtcome
  · rw [hresult] at h
    subst h
    cases houtcome
  · rw [hresult] at h
    subst h
    cases houtcome

end GrpcStubs
