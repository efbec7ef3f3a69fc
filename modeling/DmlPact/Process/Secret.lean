/-
DmlPact/Process/Secret.lean

What a process says about the secret of its connection.  Two runs of one
invocation are answered alike, but for the value of the environment variable:

    the values name one endpoint, and may differ in everything else
    both values are absent, or too long, or unreadable

Then the two runs issue the same commands to the end, byte for byte, but for
the secret inside the configuration that is handed to the driver, and they exit
with one status (`main_secret`).  Only `connectDatabase` reads the variable, so
everything else is coupled with itself (`Blind.of_uses`).
-/
import DmlPact.Apply.Endpoint
import DmlPact.Lib.Coupling
import DmlPact.Process.Commands

namespace DmlPact

open Effect Utf8

variable (X : Crates)

/-! ### The view -/

/-- The same command, or two connections that differ in the secret. -/
inductive Cmd.SameButSecret : Cmd → Cmd → Prop
  | same (c) : SameButSecret c c
  | connect (config secret connector) :
      SameButSecret (.connect config connector) (.connect { config with secret } connector)

/-- The values of the variable pass and fail the same tests, and name one
endpoint if they pass. -/
inductive SameEndpointValue : Option String → Option String → Prop
  | absent : SameEndpointValue none none
  | tooLarge {v v' : String} (h : maxConnectionValueBytes < (asBytes v).length)
      (h' : maxConnectionValueBytes < (asBytes v').length) : SameEndpointValue v v'
  | invalid {v v' : String} (fits : ¬ maxConnectionValueBytes < (asBytes v).length)
      (fits' : ¬ maxConnectionValueBytes < (asBytes v').length) (h : X.parseConfig v = none)
      (h' : X.parseConfig v' = none) : SameEndpointValue v v'
  | parsed {v v' : String} {c c' : Config}
      (fits : ¬ maxConnectionValueBytes < (asBytes v).length)
      (fits' : ¬ maxConnectionValueBytes < (asBytes v').length) (h : X.parseConfig v = some c)
      (h' : X.parseConfig v' = some c') (same : c.SameEndpoint c') : SameEndpointValue v v'

/-- The same answer to the same command, but for the secret. -/
inductive SameAnswer : Event Cmd Reply → Event Cmd Reply → Prop
  | same (e) : SameAnswer e e
  | var {name v v'} (h : SameEndpointValue X v v') : SameAnswer ⟨.var name, v⟩ ⟨.var name, v'⟩
  | connect {config config' connector} (opened : Bool) :
      SameAnswer ⟨.connect config connector, opened⟩ ⟨.connect config' connector, opened⟩

/-- Everything but the secret. -/
def secretView : View Cmd Reply where
  cmds := Cmd.SameButSecret
  replies := SameAnswer X

/-- The program is coupled with itself: it does not give the secret away. -/
def Blind {α : Type} (p : Prog Cmd Reply α) : Prop := Alike (secretView X) p p

variable {X}

theorem clear_nativeCerts : (secretView X).Clear .nativeCerts := by
  refine ⟨.same _, fun r r' hr => ?_⟩
  cases hr
  rfl

theorem clear_of_channel {c : Cmd} (h : c.channel ∉ [Channel.environment, .connect]) :
    (secretView X).Clear c := by
  refine ⟨.same c, fun r r' hr => ?_⟩
  cases hr with
  | same => rfl
  | var => exact absurd (List.mem_cons_self) h
  | connect => rfl

namespace Blind

variable {α β ε : Type} {x : Fallible ε Cmd Reply α} {f : α → Fallible ε Cmd Reply β}

/-- Programs that neither read the environment nor connect. -/
theorem of_uses {cs : List Channel} {p : Prog Cmd Reply α} (hp : Uses cs p)
    (hcs : cs.all (fun c => !([Channel.environment, .connect].contains c)) = true) :
    Blind X p :=
  alike_of_within (Within.mono hp fun _ hc => clear_of_channel (Channel.apart hc hcs))

theorem ret (a : α) : Blind X (.ret a) := Alike.ret a

theorem call_same {c : Cmd} {k k' : Reply c → Prog Cmd Reply α} (hc : (secretView X).Clear c)
    (hk : ∀ r, Alike (secretView X) (k r) (k' r)) :
    Alike (secretView X) (.call c k) (.call c k') := by
  refine .call hc.1 fun r r' hr => ?_
  obtain rfl := hc.2 r r' hr
  exact hk r

theorem run_bind (hx : Blind X x.run) (hf : ∀ a, Blind X (f a).run) : Blind X (x >>= f).run :=
  Alike.run_bind hx hf

theorem bind {p : Prog Cmd Reply α} {f : α → Prog Cmd Reply β} (hp : Blind X p)
    (hf : ∀ a, Blind X (f a)) : Blind X (p >>= f) := Alike.bind hp hf

theorem ite_run {p : Prop} [Decidable p] {x y : Fallible ε Cmd Reply α} (hx : Blind X x.run)
    (hy : Blind X y.run) : Blind X (if p then x else y).run := by
  split
  · exact hx
  · exact hy

theorem orRefuse {x : App α} {g : AppError → Outcome} (hx : Blind X x.run) :
    Blind X (DmlPact.orRefuse x g).run :=
  Blind.bind hx fun r => by cases r <;> exact .ret _

end Blind

/-! ### Connecting -/

theorem allHostsAreLocal_congr {c c' : Config} (h : c.SameEndpoint c') :
    allHostsAreLocal c = allHostsAreLocal c' := by
  rw [allHostsAreLocal, h.hosts, h.hostaddrs]
  rfl

theorem SameEndpointValue.refl (v : Option String) : SameEndpointValue X v v := by
  rcases v with - | v
  · exact .absent
  by_cases hfits : maxConnectionValueBytes < (asBytes v).length
  · exact .tooLarge hfits hfits
  · rcases hparsed : X.parseConfig v with - | c
    · exact .invalid hfits hfits hparsed hparsed
    · exact .parsed hfits hfits hparsed hparsed ⟨rfl, rfl, rfl, rfl, rfl⟩

theorem SameAnswer.value {name : String} {v v' : Option String}
    (h : SameAnswer X ⟨.var name, v⟩ ⟨.var name, v'⟩) : SameEndpointValue X v v' := by
  cases h with
  | same => exact .refl v
  | var h => exact h

theorem SameAnswer.opened {config config' : Config} {connector : Connector} {r r' : Bool}
    (h : SameAnswer X ⟨.connect config connector, r⟩ ⟨.connect config' connector, r'⟩) :
    r = r' := by
  cases h with
  | same => rfl
  | connect => rfl

/-- What is handed to the driver differs in the secret only: the rest of what
the values may differ in is overwritten. -/
theorem sameButSecret_of_sameEndpoint {c c' : Config} (h : c.SameEndpoint c') (mode : SslMode)
    (connector : Connector) : Cmd.SameButSecret
      (.connect { clientConfig c with sslMode := mode } connector)
      (.connect { clientConfig c' with sslMode := mode } connector) := by
  have hconfig : ({ clientConfig c' with sslMode := mode } : Config) =
      { { clientConfig c with sslMode := mode } with secret := c'.secret } := by
    simp only [clientConfig, h.hosts, h.hostaddrs, h.ports, h.user, h.dbname]
  rw [hconfig]
  exact .connect _ _ _

theorem connectParsed_blind {c c' : Config} (h : c.SameEndpoint c') (insecure : Bool) :
    Alike (secretView X) (connectParsed X c insecure).run (connectParsed X c' insecure).run := by
  -- the tests and the hash see the endpoint, the driver the configuration
  have hclient : (clientConfig c).SameEndpoint (clientConfig c') :=
    ⟨h.hosts, h.hostaddrs, h.ports, h.user, h.dbname⟩
  have hlocal := allHostsAreLocal_congr hclient
  have hendpoint := endpointSha256_congr X hclient
  unfold connectParsed
  dsimp only
  rw [hlocal, hendpoint]
  split_ifs
  · exact .ret _
  · refine .call (sameButSecret_of_sameEndpoint h .disable .noTls) fun opened opened' hopened => ?_
    obtain rfl := hopened.opened
    cases opened <;> exact .ret _
  · refine Blind.call_same clear_nativeCerts fun roots => ?_
    cases roots
    · exact .ret _
    refine .call (sameButSecret_of_sameEndpoint h .require .nativeRoots)
      fun opened opened' hopened => ?_
    obtain rfl := hopened.opened
    cases opened <;> exact .ret _

theorem connectValue_blind {v v' : Option String} (h : SameEndpointValue X v v') (name : String)
    (insecure : Bool) : Alike (secretView X) (connectValue X name insecure v).run
      (connectValue X name insecure v').run := by
  unfold connectValue
  cases h with
  | absent => exact .ret _
  | tooLarge hlarge hlarge' =>
      dsimp only
      rw [if_pos hlarge, if_pos hlarge']
      exact .ret _
  | invalid hfits hfits' hinvalid hinvalid' =>
      dsimp only
      rw [if_neg hfits, if_neg hfits', hinvalid, hinvalid']
      exact .ret _
  | parsed hfits hfits' hparsed hparsed' hsame =>
      dsimp only
      rw [if_neg hfits, if_neg hfits', hparsed, hparsed']
      exact connectParsed_blind hsame insecure

theorem connectDatabase_blind (name : String) (insecure : Bool) :
    Blind X (connectDatabase X name insecure).run := by
  rw [connectDatabase_eq]
  refine .run_bind (.ret _) fun _ => .call (.same _) fun v v' hv => ?_
  exact connectValue_blind hv.value name insecure

/-! ### The commands -/

variable (X)

theorem inspectTable_blind (requestedTable : String) (options : DatabaseOptions) :
    Blind X (inspectTable X requestedTable options).run := by
  rw [inspectTable_eq]
  exact .run_bind (connectDatabase_blind _ _) fun _ => .of_uses (inspectSession_uses X _ _) rfl

theorem createPlan_blind (options : PlanOptions) : Blind X (createPlan X options).run := by
  rw [createPlan_eq]
  refine .run_bind (.ret _) fun _ => .ite_run (.ret _) ?_
  refine .run_bind (.of_uses (readAndAnalyze_uses X _) rfl) fun analyzed => ?_
  refine .run_bind (connectDatabase_blind _ _) fun database => ?_
  refine .run_bind (.of_uses (planSession_uses X _ _ _) rfl) fun observed => ?_
  exact .of_uses (publishPlan_uses X _ _) rfl

theorem transact_blind (plan : Plan) (analyzed : AnalyzedSql) (options : DatabaseOptions) :
    Blind X (transact X plan analyzed options).run := by
  refine .run_bind ?_ fun database => .run_bind (.of_uses (checkDrift_uses X _ _ _) rfl)
    fun observed => .of_uses (mutate_uses _ _) rfl
  refine .run_bind (.ret _) fun _ => .run_bind (connectDatabase_blind _ _).orRefuse fun _ => ?_
  refine .run_bind (.ret _) fun _ => ?_
  have hlocked : Uses [.batch] (request (Cmd.batchExecute (lockText
      plan.preconditions.canonicalTable)) : Stage Bool).run := .request rfl
  have htimeouts : Uses [.batch] (applyLocalTimeouts plan.limits).run :=
    applyLocalTimeouts_within (List.mem_singleton_self _)
  have hstarted : Uses [.start] (request (Cmd.start .repeatableRead false) : Stage Bool).run :=
    .request rfl
  refine .run_bind (.of_uses hstarted rfl) fun started => .run_bind (.ret _) fun _ => ?_
  refine .run_bind (Blind.orRefuse (.of_uses htimeouts rfl)) fun _ => ?_
  exact .run_bind (.of_uses hlocked rfl) fun locked => .run_bind (.ret _) fun _ => .ret _

theorem applyPlan_blind (options : ApplyOptions) : Blind X (applyPlan X options).run := by
  refine .run_bind (.of_uses (readPlan_uses X _) rfl) fun plan => .run_bind (.ret _) fun _ => ?_
  refine .run_bind (.of_uses (readAndAnalyze_uses X _) rfl) fun analyzed => ?_
  refine .run_bind (.ret _) fun _ => .run_bind (.of_uses unixMs_uses rfl) fun now => ?_
  refine .ite_run (.ret _) (.run_bind (.of_uses (create_uses X _ _ _) rfl) fun journal => ?_)
  rw [applyAfterReceipt_eq]
  refine Blind.bind (transact_blind X plan analyzed _) fun decided => ?_
  cases decided <;> exact .of_uses (finishOutcome_uses X journal _) rfl

/-- A command computes its result, and writes it to standard output. -/
theorem run_blind (command : Command) : Blind X (run X command).run := by
  have hemit (value : Json.Value) : Blind X (emitJson value).run := .of_uses (emitJson_uses _) rfl
  cases command with
  | lint sql =>
      exact .run_bind (.of_uses (lintSql_uses X _) rfl) fun _ =>
        .run_bind (hemit _) fun _ => .ret _
  | inspect table database =>
      exact .run_bind (inspectTable_blind X _ _) fun _ => .run_bind (hemit _) fun _ => .ret _
  | plan sql out maxRows statementTimeout lockTimeout validFor allowTriggers allowRowSecurity
      database =>
      refine .run_bind (.ret _) fun _ => .run_bind (.ret _) fun _ => .run_bind (.ret _) fun _ => ?_
      exact .run_bind (createPlan_blind X _) fun _ => .run_bind (hemit _) fun _ => .ret _
  | apply sql plan receipt database =>
      exact .run_bind (applyPlan_blind X _) fun _ => .run_bind (hemit _) fun _ => .ret _
  | receiptVerify receipt =>
      exact .run_bind (.of_uses (verifyReceipt_uses X _) rfl) fun _ =>
        .run_bind (hemit _) fun _ => .ret _
  | schema | capabilities | contract => exact .run_bind (hemit _) fun _ => .ret _
  | completions script =>
      exact .run_bind (Blind.bind (.of_uses (printOrPanic_uses _) rfl) fun _ => .ret _)
        fun _ => .ret _

theorem main_blind (invocation : Invocation) : Blind X (main X invocation) := by
  have hexit (error : AppError) : Blind X (exitWith error) := .of_uses (exitWith_uses _) rfl
  cases invocation with
  | display text => exact .bind (.of_uses (printOrPanic_uses _) rfl) fun _ => .ret _
  | invalid => exact hexit _
  | command command =>
      refine .bind (run_blind X command) fun result => ?_
      cases result with
      | ok code => exact .ret _
      | error error => exact hexit error

/-- **The secret stays.**  Two runs of an invocation, answered alike but for
what the value of the variable holds besides the endpoint, have issued the same
commands but for the secret given to the driver, and go on so until both exit
with the same status. -/
theorem main_secret (invocation : Invocation) {h h' : History} {q q' : Prog Cmd Reply UInt8}
    (hr : Reaches (main X invocation) h q) (hr' : Reaches (main X invocation) h' q')
    (hanswers : List.Forall₂
      (fun e e' => e.cmd.SameButSecret e'.cmd → SameAnswer X e e') h h') :
    List.Forall₂ (fun e e' => e.cmd.SameButSecret e'.cmd) h h' ∧ Alike (secretView X) q q' :=
  (main_blind X invocation).runs hr hr' hanswers

namespace Sample

/-- The configuration with a password. -/
def withPassword (password : String) : Config := { config with secret := password }

/-- The crates, on two passwords. -/
def passwords : Crates :=
  { crates with
    parseConfig := fun value =>
      if value = "host=localhost password=first" then some (withPassword "first")
      else if value = "host=localhost password=second" then some (withPassword "second")
      else none }

/-- The driver is asked for a connection, and fails. -/
def unconnected (value password : String) : History :=
  [⟨.var "U", some value⟩,
    ⟨.connect { clientConfig (withPassword password) with sslMode := .disable } .noTls, false⟩]

/-- Reporting that the connection failed is all that is left. -/
theorem reaches_unconnected {value password : String}
    (hvalue : ¬ maxConnectionValueBytes < (asBytes value).length)
    (hparsed : passwords.parseConfig value = some (withPassword password)) :
    Reaches (main passwords (.command (.inspect "t" options.database)))
      (unconnected value password) (exitWith (databaseError "connect_failed")) := by
  have hconnect : Reaches (connectDatabase passwords options.database.environmentName
      options.database.allowInsecureLocalhost).run (unconnected value password)
      (.ret (.error (databaseError "connect_failed"))) := by
    rw [connectDatabase_eq]
    refine .call ?_
    show Reaches (connectValue passwords "U" true (some value)).run _ _
    unfold connectValue
    dsimp only
    rw [if_neg hvalue, hparsed]
    exact .call (.refl _)
  have hrun : Reaches (run passwords (.inspect "t" options.database)).run
      (unconnected value password) (.ret (.error (databaseError "connect_failed"))) :=
    Reaches.run_bind_ret_iff.mpr (.inl ⟨_, rfl, Reaches.run_bind_ret_iff.mpr
      (.inl ⟨_, rfl, hconnect⟩)⟩)
  exact hrun.bind_left _

end Sample

/-- Another password. -/
theorem main_secret_sample :
    List.Forall₂ (fun e e' => e.cmd.SameButSecret e'.cmd)
        (Sample.unconnected "host=localhost password=first" "first")
        (Sample.unconnected "host=localhost password=second" "second") ∧
      Alike (secretView Sample.passwords) (exitWith (databaseError "connect_failed"))
        (exitWith (databaseError "connect_failed")) := by
  refine main_secret Sample.passwords (.command (.inspect "t" Sample.options.database))
    (Sample.reaches_unconnected (by decide) rfl) (Sample.reaches_unconnected (by decide) rfl) ?_
  refine .cons (fun _ => .var (.parsed (by decide) (by decide) rfl rfl ⟨rfl, rfl, rfl, rfl, rfl⟩))
    (.cons (fun _ => .connect false) .nil)

end DmlPact
