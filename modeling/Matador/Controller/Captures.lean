import Matador.Controller.Experiment
import Matador.Library.Delimited
import Matador.Wrapper.Counter
import Matador.Wrapper.Reuse

/-!
# Captures of different calls have different names

The name of a capture holds the counter, the number of the router, the application
and both hosts, so it can be taken apart again as long as none of these parts has
an underscore. The counter alone does not tell two calls apart, because it stays
the same after a host failure; but such a call has removed one of its two hosts,
and a later call does not use it.
-/

namespace Matador

def Plain (text : String) : Prop := '_' ∉ text.toList

instance (text : String) : Decidable (Plain text) := inferInstanceAs (Decidable (¬ _))

namespace Controller

/-! ## Taking a name apart -/

theorem toList_captureStem
    (counter router app country hostname toCountry toHostname rest : String) :
    (captureStem counter router app country hostname toCountry toHostname ++ "_" ++ rest).toList =
      Delimited.fieldsThen '_' [counter.toList, router.toList, app.toList, country.toList,
        hostname.toList, "tcpdump".toList, "to".toList, toCountry.toList, toHostname.toList]
        rest.toList := by
  simp [captureStem, Delimited.fieldsThen]

structure Arguments.Plain (args : Arguments) : Prop where
  countries : Matador.Plain args.countries.1 ∧ Matador.Plain args.countries.2
  hostnames : Matador.Plain args.hostnames.1 ∧ Matador.Plain args.hostnames.2
  counter : Matador.Plain args.counter

def Arguments.fields (args : Arguments) (app : String) : Router → List (List Char)
  | .one => [args.counter.toList, "1".toList, app.toList, args.countries.1.toList,
      args.hostnames.1.toList, "tcpdump".toList, "to".toList, args.countries.2.toList,
      args.hostnames.2.toList]
  | .two => [args.counter.toList, "2".toList, app.toList, args.countries.2.toList,
      args.hostnames.2.toList, "tcpdump".toList, "to".toList, args.countries.1.toList,
      args.hostnames.1.toList]

theorem Arguments.toList_stem (args : Arguments) (router : Router) (app rest : String) :
    (args.stem router app ++ "_" ++ rest).toList =
      Delimited.fieldsThen '_' (args.fields app router) rest.toList := by
  cases router <;> exact toList_captureStem ..

theorem Arguments.result_eq (args : Arguments) (router : Router) (app timestamp : String) :
    args.result router app timestamp = args.stem router app ++ "_" ++ (timestamp ++ ".dump") := by
  cases router <;> exact String.append_assoc ..

theorem Arguments.Plain.notMem_fields {args : Arguments} (h : args.Plain) {app : String}
    (happ : Matador.Plain app) (router : Router) :
    ∀ field ∈ args.fields app router, '_' ∉ field := by
  obtain ⟨⟨hc1, hc2⟩, ⟨hh1, hh2⟩, hcounter⟩ := h
  have hone : '_' ∉ "1".toList := by decide
  have htwo : '_' ∉ "2".toList := by decide
  have htcpdump : '_' ∉ "tcpdump".toList := by decide
  have hto : '_' ∉ "to".toList := by decide
  cases router <;> simp only [Arguments.fields, List.forall_mem_cons]
  · exact ⟨hcounter, hone, happ, hc1, hh1, htcpdump, hto, hc2, hh2, by simp⟩
  · exact ⟨hcounter, htwo, happ, hc2, hh2, htcpdump, hto, hc1, hh1, by simp⟩

/-- Equal names, whatever follows them, have the same counter, application, router
and hostnames. -/
theorem Arguments.Plain.of_stem_eq {args other : Arguments} (h : args.Plain) (h' : other.Plain)
    {app app' : String} (happ : Matador.Plain app) (happ' : Matador.Plain app')
    {router router' : Router} {rest rest' : String}
    (heq : args.stem router app ++ "_" ++ rest = other.stem router' app' ++ "_" ++ rest') :
    args.counter = other.counter ∧ app = app' ∧ router = router' ∧
      args.hostnames = other.hostnames := by
  have hlists := congrArg String.toList heq
  rw [Arguments.toList_stem, Arguments.toList_stem] at hlists
  have hlen : (args.fields app router).length = (other.fields app' router').length := by
    cases router <;> cases router' <;> rfl
  have hfields := (Delimited.fieldsThen_inj (h.notMem_fields happ router)
    (h'.notMem_fields happ' router') hlen hlists).1
  cases router <;> cases router' <;>
    simp only [Arguments.fields, List.cons.injEq, String.toList_inj] at hfields
  · exact ⟨hfields.1, hfields.2.2.1, rfl,
      Prod.ext hfields.2.2.2.2.1 hfields.2.2.2.2.2.2.2.2.1⟩
  · exact absurd hfields.2.1 (by decide)
  · exact absurd hfields.2.1 (by decide)
  · exact ⟨hfields.1, hfields.2.2.1, rfl,
      Prod.ext hfields.2.2.2.2.2.2.2.2.1 hfields.2.2.2.2.1⟩

end Controller

namespace Wrapper

variable {n : ℕ}

/-! ## The calls of a run -/

/-- The parameters with which the wrappers call `controller.experiment`. -/
def Call.arguments (storageDirectory : String) (c : Call) : Controller.Arguments where
  countries := (c.host1.node.country, c.host2.node.country)
  hostnames := (c.host1.node.hostname, c.host2.node.hostname)
  coordinates := (c.host1.node.longitude ++ "," ++ c.host1.node.latitude,
    c.host2.node.longitude ++ "," ++ c.host2.node.latitude)
  counter := Delimited.zfill 4 (toString c.counter)
  storageDirectory := storageDirectory

def Country.Plain (country : Country) : Prop :=
  (∀ code ∈ country.code?, Matador.Plain code) ∧
    ∀ host ∈ country.hosts, ∀ hostname ∈ host[0]?, Matador.Plain hostname

instance (country : Country) : Decidable country.Plain := inferInstanceAs (Decidable (_ ∧ _))

theorem plain_of_nodeOf {input : Vector Country n}
    (hplain : ∀ country ∈ input.toList, country.Plain)
    {e : HostEntry} {node : Node} (h : nodeOf input e = some node) :
    Plain node.country ∧ Plain node.hostname := by
  obtain ⟨country, hcountry, hnode⟩ := Option.bind_eq_some_iff.mp h
  obtain ⟨hcode, host, hhost, hhostname⟩ := Country.nodeAt?_eq_some hnode
  rw [← Vector.getElem?_toList] at hcountry
  obtain ⟨hcodes, hhostnames⟩ := hplain country (List.mem_of_getElem? hcountry)
  exact ⟨hcodes _ hcode, hhostnames host (List.mem_of_getElem? hhost) _ hhostname⟩

theorem NodesFrom.plain_arguments {input : Vector Country n} {log : List Call}
    (hnodes : NodesFrom input log) (hplain : ∀ country ∈ input.toList, country.Plain) {c : Call}
    (hc : c ∈ log) (storageDirectory : String) : (c.arguments storageDirectory).Plain := by
  obtain ⟨hhost1, hhost2⟩ := hnodes c hc
  have hplain1 := plain_of_nodeOf hplain hhost1
  have hplain2 := plain_of_nodeOf hplain hhost2
  exact ⟨⟨hplain1.1, hplain2.1⟩, ⟨hplain1.2, hplain2.2⟩,
    Delimited.notMem_zfill_repr (by decide) 4 c.counter⟩

/-- With pairwise distinct hostnames, calls with equal hostnames use the same lines. -/
theorem NodesFrom.entries_eq {input : Vector Country n} {log : List Call}
    (hnodes : NodesFrom input log) (hnodup : (hostnames input.toList).Nodup) {c d : Call}
    (hc : c ∈ log) (hd : d ∈ log) (h1 : c.host1.node.hostname = d.host1.node.hostname)
    (h2 : c.host2.node.hostname = d.host2.node.hostname) : c.entries = d.entries := by
  have hentry1 := entry_eq_of_hostname hnodup (hnodes c hc).1 (hnodes d hd).1 h1
  have hentry2 := entry_eq_of_hostname hnodup (hnodes c hc).2 (hnodes d hd).2 h2
  rw [Call.entries, Call.entries, hentry1, hentry2]

/-- Two calls of a run with the same number and the same hosts are one call: the
earlier one would have removed one of the hosts. -/
theorem position_eq_of_counter {s₀ s : State n} (h₀ : Initial s₀) (h : Run s₀ s) {p q : ℕ}
    {c d : Call} (hp : s.log[p]? = some c) (hq : s.log[q]? = some d)
    (hcounter : c.counter = d.counter) (hentries : c.entries = d.entries) : p = q := by
  have hpairwise := (pairwise_unlike_of_reachable h₀ h).and (counted_of_reachable h₀ h).pairwise
  have hsame : ∀ {b a : Call}, b.counter = a.counter → b.entries = a.entries →
      ¬ (Unlike b a ∧ a.counter ≤ b.counter ∧ (a.dropped = none → a.counter < b.counter)) := by
    rintro b a hcounter hentries ⟨hunlike, -, hlt⟩
    cases hdrop : a.dropped with
    | none => exact absurd hcounter.symm (hlt hdrop).ne
    | some e =>
        refine hunlike.removed e hdrop ?_
        rw [hentries]
        exact Call.mem_entries_of_dropped hdrop
  exact Log.index_eq_of_pairwise hpairwise hp hq (hsame hcounter hentries)
    (hsame hcounter.symm hentries.symm)

/-- The captures of a run never collide: if the hostnames of the input are pairwise
distinct, codes, hostnames and applications have no underscore and no application
is listed twice, then two captures have the same name only if they belong to the
same call, the same iteration of its loop and the same router, whatever their
timestamps are and even without them. -/
theorem captures_never_collide {s₀ s : State n} (h₀ : Start s₀) (h : Run s₀ s)
    (hnodup : (hostnames s₀.countryList.toList).Nodup)
    (hplain : ∀ country ∈ s₀.countryList.toList, country.Plain)
    {applications : List String} (happs : applications.Nodup)
    (hplainApps : ∀ app ∈ applications, Plain app) (storageDirectory : String)
    {p q k l : ℕ} {c d : Call} {app app' : String}
    (hp : s.log[p]? = some c) (hq : s.log[q]? = some d)
    (hk : applications[k]? = some app) (hl : applications[l]? = some app')
    {router router' : Controller.Router}
    (heq : (c.arguments storageDirectory).stem router app =
          (d.arguments storageDirectory).stem router' app' ∨
        ∃ timestamp timestamp', (c.arguments storageDirectory).result router app timestamp =
          (d.arguments storageDirectory).result router' app' timestamp') :
    p = q ∧ k = l ∧ router = router' := by
  have hnodes := nodesFrom_of_reachable h₀.initial h
  have hc := List.mem_of_getElem? hp
  have hd := List.mem_of_getElem? hq
  have happ := hplainApps app (List.mem_of_getElem? hk)
  have happ' := hplainApps app' (List.mem_of_getElem? hl)
  obtain ⟨rest, rest', hstem⟩ : ∃ rest rest',
      (c.arguments storageDirectory).stem router app ++ "_" ++ rest =
        (d.arguments storageDirectory).stem router' app' ++ "_" ++ rest' := by
    rcases heq with hstem | ⟨timestamp, timestamp', hresult⟩
    · exact ⟨"", "", by rw [hstem]⟩
    · rw [Controller.Arguments.result_eq, Controller.Arguments.result_eq] at hresult
      exact ⟨_, _, hresult⟩
  obtain ⟨hcounter, rfl, rfl, hhosts⟩ :=
    (hnodes.plain_arguments hplain hc storageDirectory).of_stem_eq
    (hnodes.plain_arguments hplain hd storageDirectory) happ happ' hstem
  have hentries := hnodes.entries_eq hnodup hc hd (congrArg Prod.fst hhosts)
    (congrArg Prod.snd hhosts)
  refine ⟨position_eq_of_counter h₀.initial h hp hq ?_ hentries, ?_, rfl⟩
  · exact Delimited.zfill_repr_inj (congrArg String.toList hcounter)
  · exact Log.index_eq_of_pairwise happs hk hl (fun hne => hne rfl) (fun hne => hne rfl)

/-- `BE` loses its first host in the experiment with itself; the retry has the same
number and other names. -/
theorem captures_never_collide_retry :
    let s := execute (fun k => if k = 0 then .host1Exception else .returns) 4
      (wrapperStart [.entry "BE" [["a", "1", "2"], ["b", "3", "4"]]])
    s.log.map Call.counter = [0, 0] ∧
      ∀ (p q : ℕ) (c d : Call) router router', s.log[p]? = some c → s.log[q]? = some d →
        (c.arguments "/results/").stem router "skype" =
            (d.arguments "/results/").stem router' "skype" → p = q ∧ router = router' := by
  refine ⟨by decide, fun p q c d router router' hp hq hstem => ?_⟩
  have hsame := captures_never_collide (Start.wrapper _) (execute_run _ 4 _) (by decide) (by decide)
    (show ["whatsapp", "skype"].Nodup by decide) (by decide) "/results/" hp hq
    (show ["whatsapp", "skype"][1]? = some "skype" from rfl)
    (show ["whatsapp", "skype"][1]? = some "skype" from rfl) (Or.inl hstem)
  exact ⟨hsame.1, hsame.2.2⟩

end Wrapper

end Matador
