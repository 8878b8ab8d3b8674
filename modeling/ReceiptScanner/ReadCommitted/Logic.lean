import ReceiptScanner.ReadCommitted.Interference

/-!
# Rely-guarantee reasoning about programs

`Prog.wp` is the weakest condition under which a program, run among processes
that keep the guarantee, keeps it too and ends in the postcondition. It allows
any interference between two nodes of the program, and, inside a statement,
between its snapshot and its end. `Keeps.sound` concludes from it that every
commit of every run keeps the guarantee.
-/

namespace ReadCommitted

variable {σ : Signature} {X : Interface}

/-- A condition on a result, on what belongs to the process, and on the world. -/
abbrev Post (σ : Signature) (X : Interface) (α : Type) := α → Local σ X → World σ X → Prop

section Wp

variable (ok : Guarantee σ X) (schema : Schema σ)

/-- A statement under way is safe when its failure is, and every way to finish is. -/
def FlightSafe {β : Type} (inTxn : Bool) (stmt : Stmt σ β) (flight : Flight σ X)
    (next : Post σ X (Except SqlFailure β)) (own : Local σ X) (world : World σ X) : Prop :=
  ∀ later, Rely ok own world later → later.WellFormed →
    (∀ failure, next (.error failure) (own.fail inTxn) later) ∧
    ∀ others pending reply own' world',
      finish schema others pending inTxn stmt flight own later = some (reply, own', world') →
        Extends ok later.history world'.history ∧ next reply own' world'

/-- The weakest precondition of a program among interfering processes. -/
def Prog.wp {α : Type} : Prog σ X α → Post σ X α → Local σ X → World σ X → Prop
  | .done value, post, own, world => post value own world
  | .exec inTxn stmt next, post, own, world =>
      ∀ later, Rely ok own world later → later.WellFormed →
        (∀ failure, (next (.error failure)).wp post (own.fail inTxn) later) ∧
        FlightSafe ok schema inTxn stmt ⟨later.history, later.clock⟩
          (fun reply => (next reply).wp post) own later.tick
  | .beginTxn next, post, own, world =>
      ∀ later, Rely ok own world later → later.WellFormed →
        (∀ failure, (next (.error failure)).wp post own later) ∧
        (next (.ok ())).wp post (own.beginTxn later) later.tick
  | .commit next, post, own, world =>
      ∀ later, Rely ok own world later → later.WellFormed →
        Extends ok later.history (own.committed later).history ∧
        next.wp post own.drop (own.committed later)
  | .rollback next, post, own, world =>
      ∀ later, Rely ok own world later → later.WellFormed → next.wp post own.drop later
  | .call c next, post, own, world =>
      ∀ later, Rely ok own world later → later.WellFormed →
        ok.calls own.tid own.calls c later.history ∧
        ∀ reply, (next reply).wp post (own.called ⟨c, reply⟩)
          { later with env := X.perform c reply later.env }

end Wp

variable {ok : Guarantee σ X} {schema : Schema σ} {α β : Type}

theorem FlightSafe.mono {inTxn : Bool} {stmt : Stmt σ β} {flight : Flight σ X}
    {next next' : Post σ X (Except SqlFailure β)} {own : Local σ X} {world : World σ X}
    (implies : ∀ reply own world, next reply own world → next' reply own world)
    (safe : FlightSafe ok schema inTxn stmt flight next own world) :
    FlightSafe ok schema inTxn stmt flight next' own world := by
  intro later rely wf
  obtain ⟨failing, finishing⟩ := safe later rely wf
  refine ⟨fun failure => implies _ _ _ (failing failure), ?_⟩
  intro others pending reply own' world' finished
  obtain ⟨extends_, after⟩ := finishing others pending reply own' world' finished
  exact ⟨extends_, implies _ _ _ after⟩

/-- A weaker postcondition has a weaker precondition. -/
theorem Prog.wp_mono {prog : Prog σ X α} {post post' : Post σ X α} {own : Local σ X}
    {world : World σ X} (implies : ∀ value own world, post value own world → post' value own world)
    (safe : prog.wp ok schema post own world) : prog.wp ok schema post' own world := by
  induction prog generalizing own world with
  | done value => exact implies _ _ _ safe
  | exec inTxn stmt next ih =>
      intro later rely wf
      obtain ⟨failing, flight⟩ := safe later rely wf
      exact ⟨fun failure => ih _ (failing failure), flight.mono fun reply _ _ => ih reply⟩
  | beginTxn next ih =>
      intro later rely wf
      obtain ⟨failing, begun⟩ := safe later rely wf
      exact ⟨fun failure => ih _ (failing failure), ih _ begun⟩
  | commit next ih =>
      intro later rely wf
      obtain ⟨extends_, after⟩ := safe later rely wf
      exact ⟨extends_, ih after⟩
  | rollback next ih => exact fun later rely wf => ih (safe later rely wf)
  | call c next ih =>
      intro later rely wf
      obtain ⟨allowed, after⟩ := safe later rely wf
      exact ⟨allowed, fun reply => ih reply (after reply)⟩

theorem Extends.suffix {before after : History σ X} (extends_ : Extends ok before after) :
    before <:+ after := by
  rcases extends_ with rfl | ⟨commit, rfl, -⟩
  · exact List.suffix_rfl
  · exact List.suffix_cons _ _

/-- A safe program ends with a longer history than it began with. -/
theorem Prog.wp_grows {prog : Prog σ X α} {post : Post σ X α} {own : Local σ X}
    {world : World σ X} {base : History σ X} (past : base <:+ world.history)
    (safe : prog.wp ok schema post own world) :
    prog.wp ok schema (fun value own world => post value own world ∧ base <:+ world.history)
      own world := by
  induction prog generalizing own world with
  | done value => exact ⟨safe, past⟩
  | exec inTxn stmt next ih =>
      intro first relyFirst wfFirst
      have toFirst := past.trans relyFirst.suffix
      obtain ⟨failing, flight⟩ := safe first relyFirst wfFirst
      refine ⟨fun failure => ih _ toFirst (failing failure), fun last relyLast wfLast => ?_⟩
      have toLast : base <:+ last.history := toFirst.trans relyLast.suffix
      obtain ⟨failing, finishing⟩ := flight last relyLast wfLast
      refine ⟨fun failure => ih _ toLast (failing failure), ?_⟩
      intro others pending reply own' world' finished
      obtain ⟨extends_, after⟩ := finishing others pending reply own' world' finished
      exact ⟨extends_, ih reply (toLast.trans extends_.suffix) after⟩
  | beginTxn next ih =>
      intro later rely wf
      obtain ⟨failing, begun⟩ := safe later rely wf
      have toLater := past.trans rely.suffix
      exact ⟨fun failure => ih _ toLater (failing failure), ih _ toLater begun⟩
  | commit next ih =>
      intro later rely wf
      obtain ⟨extends_, after⟩ := safe later rely wf
      exact ⟨extends_, ih ((past.trans rely.suffix).trans extends_.suffix) after⟩
  | rollback next ih =>
      exact fun later rely wf => ih (past.trans rely.suffix) (safe later rely wf)
  | call c next ih =>
      intro later rely wf
      obtain ⟨allowed, after⟩ := safe later rely wf
      have toLater : base <:+ later.history := past.trans rely.suffix
      exact ⟨allowed, fun reply => ih reply toLater (after reply)⟩

/-- A sequence is safe when its first part is, ending where its second part is. -/
theorem Prog.wp_bind {prog : Prog σ X α} {rest : α → Prog σ X β} {post : Post σ X β}
    {own : Local σ X} {world : World σ X} :
    (prog.bind rest).wp ok schema post own world ↔
      prog.wp ok schema (fun value => (rest value).wp ok schema post) own world := by
  induction prog generalizing own world with
  | done value => exact Iff.rfl
  | exec inTxn stmt next ih =>
      simp only [Prog.bind, Prog.wp]
      constructor <;> intro safe later rely wf <;> obtain ⟨failing, flight⟩ := safe later rely wf
      · exact ⟨fun failure => (ih _).mp (failing failure),
          flight.mono fun reply _ _ => (ih reply).mp⟩
      · exact ⟨fun failure => (ih _).mpr (failing failure),
          flight.mono fun reply _ _ => (ih reply).mpr⟩
  | beginTxn next ih => simp only [Prog.bind, Prog.wp, ih]
  | commit next ih => simp only [Prog.bind, Prog.wp, ih]
  | rollback next ih => simp only [Prog.bind, Prog.wp, ih]
  | call c next ih => simp only [Prog.bind, Prog.wp, ih]

/-- A postcondition that interference cannot break. -/
def Stable (ok : Guarantee σ X) (post : Post σ X α) : Prop :=
  ∀ value own before after, Rely ok own before after → post value own before →
    post value own after

/-- A safe program stays safe while others run. -/
theorem Prog.wp_rely {prog : Prog σ X α} {post : Post σ X α} (stable : Stable ok post)
    {own : Local σ X} {before after : World σ X} (rely : Rely ok own before after)
    (safe : prog.wp ok schema post own before) : prog.wp ok schema post own after := by
  cases prog with
  | done value => exact stable _ _ _ _ rely safe
  | exec => exact fun later further wf => safe later (rely.trans further) wf
  | beginTxn => exact fun later further wf => safe later (rely.trans further) wf
  | commit => exact fun later further wf => safe later (rely.trans further) wf
  | rollback => exact fun later further wf => safe later (rely.trans further) wf
  | call => exact fun later further wf => safe later (rely.trans further) wf

end ReadCommitted
