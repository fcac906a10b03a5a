import RabbitWork.ReaderMachine

/-!
# Readers in lockstep

Members of a family of readers that take the same steps on the same items, up
to what a view of their outputs hides and to the reasons for which they stop.
From a program point at which this holds and is kept, they do the same on every
stream: all are left in the same read call, or the same item stops them all.
-/

namespace Reading

variable {κ σ ι ε ω ρ : Type*}

/-- An action as an observer sees it who sees `view output` of an output. -/
def Action.seen (view : ε → ω) : Action ι ε → Action ι ω
  | .read item => .read item
  | .emit output => .emit (view output)

@[simp] theorem reads_map_seen
    (view : ε → ω) (actions : List (Action ι ε)) :
    reads (actions.map (Action.seen view)) = reads actions := by
  induction actions with
  | nil => rfl
  | cons action actions ih =>
      cases action with
      | read item => exact congrArg (item :: ·) ih
      | emit output => exact ih

@[simp] theorem outputs_map_seen
    (view : ε → ω) (actions : List (Action ι ε)) :
    outputs (actions.map (Action.seen view)) =
      (outputs actions).map view := by
  induction actions with
  | nil => rfl
  | cons action actions ih =>
      cases action with
      | read item => exact ih
      | emit output => exact congrArg (view output :: ·) ih

theorem map_seen_map_emit (view : ε → ω) (emitted : List ε) :
    (emitted.map (Action.emit (ι := ι))).map (Action.seen view) =
      (emitted.map view).map .emit := by
  simp only [List.map_map]
  rfl

/-- What the members of the family do with an item: `seen` is what all of them
are seen to emit, and `exit` the reason of a member that stops. -/
inductive StepsTogether (family : κ → Reader σ ι ε ρ) (view : ε → ω)
    (live : σ → Prop) (exit : κ → σ → ι → ρ) (halts : σ → ι → Prop)
    (point : σ) (item : ι) : Prop
  | goOn (seen : List ω) (next : σ) (hlive : live next)
      (hemitted : ∀ member,
        ((family member).step point item).1.map view = seen)
      (hnext : ∀ member,
        ((family member).step point item).2 = .await next)
  | halt (seen : List ω) (hhalts : halts point item)
      (hemitted : ∀ member,
        ((family member).step point item).1.map view = seen)
      (hnext : ∀ member,
        ((family member).step point item).2 =
          .stopped (exit member point item))

/-- Where the members of the family are after the items. -/
inductive EndsTogether (family : κ → Reader σ ι ε ρ)
    (exit : κ → σ → ι → ρ) (halts : σ → ι → Prop)
    (start : Next σ ρ) (items : List ι) : Prop
  | waiting (point : σ)
      (hfinal : ∀ member,
        (family member).final start items = .await point)
  | halted (before : List ι) (item : ι) (unread : List ι) (point : σ)
      (hitems : items = before ++ item :: unread)
      (hhalts : halts point item)
      (hbefore : ∀ member,
        (family member).final start before = .await point)
      (hfinal : ∀ member,
        (family member).final start items =
          .stopped (exit member point item))

section Lockstep

variable {family : κ → Reader σ ι ε ρ} {view : ε → ω}
  {live : σ → Prop} {exit : κ → σ → ι → ρ} {halts : σ → ι → Prop}

theorem EndsTogether.cons
    {point next : σ} {item : ι} {items : List ι}
    (hnext : ∀ member,
      ((family member).step point item).2 = .await next)
    (hends : EndsTogether family exit halts (.await next) items) :
    EndsTogether family exit halts (.await point) (item :: items) := by
  cases hends with
  | waiting last hfinal =>
      apply EndsTogether.waiting last
      intro member
      rw [Reader.final_cons, hnext, hfinal]
  | halted before stop unread last hitems hhalts hbefore hfinal =>
      apply EndsTogether.halted (item :: before) stop unread last
      · rw [hitems, List.cons_append]
      · exact hhalts
      · intro member
        rw [Reader.final_cons, hnext, hbefore]
      · intro member
        rw [Reader.final_cons, hnext, hfinal]

/-- Members that step together are seen to do the same on every stream, and
end together. -/
theorem lockstep
    (hsteps : ∀ point item, live point →
      StepsTogether family view live exit halts point item)
    {point : σ} (hlive : live point) (items : List ι) :
    (∃ actions, ∀ member,
      ((family member).trace (.await point) items).map (Action.seen view) =
        actions) ∧
      EndsTogether family exit halts (.await point) items := by
  induction items generalizing point with
  | nil =>
      constructor
      · exact ⟨[], fun member => by simp⟩
      · exact .waiting point fun member => by simp
  | cons item items ih =>
      cases hsteps point item hlive with
      | goOn seen next hnextLive hemitted hnext =>
          obtain ⟨⟨actions, hactions⟩, hends⟩ := ih hnextLive
          constructor
          · refine ⟨.read item :: (seen.map .emit ++ actions), ?_⟩
            intro member
            rw [Reader.trace_cons, hnext, List.map_cons, List.map_append,
              map_seen_map_emit, hemitted, hactions]
            rfl
          · exact hends.cons hnext
      | halt seen hhalts hemitted hnext =>
          constructor
          · refine ⟨.read item :: seen.map .emit, ?_⟩
            intro member
            rw [Reader.trace_cons, hnext, Reader.trace_stopped,
              List.append_nil, List.map_cons, map_seen_map_emit, hemitted]
            rfl
          · apply EndsTogether.halted [] item items point rfl hhalts
            · intro member
              exact Reader.final_nil _ _
            · intro member
              rw [List.nil_append, Reader.final_cons, hnext,
                Reader.final_stopped]

end Lockstep

end Reading
