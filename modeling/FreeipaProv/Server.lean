import FreeipaProv.DeclaredKeys
import FreeipaProv.Edits
import FreeipaProv.Enable
import FreeipaProv.Removal

/-!
# A server with the object of a task

The server keeps the managed attributes of the object a task is about.  It
carries out the edits of the requests that name the object and reports what
it keeps in the form of the API.  From such a report the client reads back
the attributes, so that its diff is about the object itself.
-/

namespace FreeipaProv

open Fallible Reconcile

/-! ## Reports -/

/-- How a reply reports a list attribute; an empty one may be left out. -/
inductive ApiList (vals : Set String) : Option Val → Prop where
  | listed {ss : List String} (hmem : ∀ s, s ∈ ss ↔ s ∈ vals) :
      ApiList vals (some (.list (ss.map .str)))
  | omitted (hempty : vals = ∅) : ApiList vals none

/-- How a reply reports a scalar attribute, if it has a value. -/
inductive ApiValue (type : ParamType) : Option Atom → Option Val → Prop where
  | reported {a : Atom} {raw : Val} (hraw : ApiScalar type a raw) :
      ApiValue type (some a) (some raw)
  | omitted : ApiValue type none none

/-- The reply object reports these list attributes, and whatever other
declared attributes it has in the form of the API. -/
structure Client.ReportsLists (cl : Client) (lists : String → Set String)
    (item : Dict String Val) : Prop where
  named : cl.ApiNamed item
  lists : ∀ key, cl.ListAttr key →
    ApiList (lists key) (item.lookup (cl.apiName key))
  others : ∀ key type raw, cl.cls.paramType key = some type → type ≠ .list →
    item.lookup (cl.apiName key) = some raw → ∃ a, ApiScalar type a raw

/-- The reply object reports every attribute of the object. -/
structure Client.Reports (cl : Client) (obj : ObjState)
    (item : Dict String Val) : Prop extends
    cl.ReportsLists obj.lists item where
  scalars : ∀ key type, cl.ScalarAttr key → cl.cls.paramType key = some type →
    ApiValue type (obj.scalars key) (item.lookup (cl.apiName key))

theorem Client.reports_blank (cl : Client) : cl.Reports Store.blank ∅ where
  named := by
    intro _ key hkey
    simp at hkey
  lists _ _ := .omitted rfl
  others := by
    intro key type raw _ _ hraw
    simp at hraw
  scalars _ _ _ _ := .omitted

theorem cleanValue_list_strs (ss : List String) :
    cleanValue .list (.list (ss.map .str)) =
      .ok (if ss = [] then none else some (.list (ss.map .str))) := by
  have hclean := (ParamForm.listed ss).cleanValue_list
  rwa [strings_list] at hclean

/-- Cleaning the report of a list keeps its values. -/
theorem ApiList.cleaned {vals : Set String} {raw : Option Val}
    (hlist : ApiList vals raw) :
    StrsValue (raw.bind fun raw => Dict.stepValue (cleanValue .list raw))
      vals := by
  cases hlist with
  | listed hmem =>
      rename_i ss
      rw [Option.bind_some, cleanValue_list_strs]
      by_cases hnil : ss = []
      · left
        refine ⟨by simp [hnil, Dict.stepValue], ?_⟩
        apply Set.eq_empty_of_forall_notMem
        intro s hs
        rw [← hmem, hnil] at hs
        exact List.not_mem_nil hs
      · right
        exact ⟨ss, by simp [hnil, Dict.stepValue], hmem⟩
  | omitted hempty => exact Or.inl ⟨rfl, hempty⟩

section Report

variable {cl : Client} {m : AnsibleModule} {item current : Dict String Val}
  {lists : String → Set String} {obj : ObjState}

theorem Client.ReportsLists.mungeResponse_isOk (hcert : cl ≠ .cert)
    (huser : cl ≠ .user) (hservice : cl ≠ .service)
    (hreports : cl.ReportsLists lists item) (m : AnsibleModule) :
    ∃ current, cl.mungeResponse m item = .ok current := by
  have hclean : ∃ current, cl.cls.clean (cl.apiAttributes item) =
      .ok current := by
    refine Dict.traverse_isOk_iff.mpr fun key val hval => ?_
    cases htype : cl.cls.paramType key with
    | none => exact ⟨none, rfl⟩
    | some type =>
        rw [lookup_apiAttributes hreports.named
          (ClientClass.mem_kwArgs_of_type htype)] at hval
        by_cases hlist : type = .list
        · subst hlist
          have hreported := hreports.lists key (Client.listAttr_of_type htype)
          rw [hval] at hreported
          cases hreported with
          | listed hmem => exact ⟨_, cleanValue_list_strs _⟩
        · obtain ⟨a, hraw⟩ := hreports.others key type val htype hlist hval
          exact ⟨_, hraw.cleanValue⟩
  obtain ⟨current, hcurrent⟩ := hclean
  rw [Client.mungeResponse_eq hcert huser hservice]
  exact ⟨cl.cls.mungePopRequestKeys current, by
    simp [ClientClass.mungeResponse, hcurrent]⟩

theorem Client.ReportsLists.lookup_current (hcert : cl ≠ .cert)
    (huser : cl ≠ .user) (hservice : cl ≠ .service)
    (hreports : cl.ReportsLists lists item)
    (hok : cl.mungeResponse m item = .ok current) {key : String}
    {type : ParamType} (htype : cl.cls.paramType key = some type)
    (hkey : key ∉ cl.cls.paramKeys) :
    current.lookup key = (item.lookup (cl.apiName key)).bind fun raw =>
      Dict.stepValue (cleanValue type raw) := by
  rw [Client.mungeResponse_eq hcert huser hservice] at hok
  rw [ClientClass.lookup_mungeResponse hok, if_neg hkey, ClientClass.cleanedAt,
    lookup_apiAttributes hreports.named (ClientClass.mem_kwArgs_of_type htype),
    htype]
  rfl

theorem Client.ReportsLists.current_listsAs (hcert : cl ≠ .cert)
    (huser : cl ≠ .user) (hservice : cl ≠ .service)
    (hreports : cl.ReportsLists lists item)
    (hok : cl.mungeResponse m item = .ok current) :
    cl.ListsAs current lists := by
  apply Client.listsAs_of_strs
  intro key hkey
  rw [hreports.lookup_current hcert huser hservice hok hkey.2 hkey.1.1.2]
  exact (hreports.lists key hkey).cleaned

theorem Client.Reports.current_scalarsAs (hcert : cl ≠ .cert)
    (huser : cl ≠ .user) (hservice : cl ≠ .service)
    (hreports : cl.Reports obj item)
    (hok : cl.mungeResponse m item = .ok current) :
    cl.ScalarsAs current obj.scalars := by
  constructor
  · intro key hkey
    obtain ⟨type, htype⟩ := Option.ne_none_iff_exists'.mp hkey.1.1.1
    rw [hreports.lookup_current hcert huser hservice hok htype hkey.1.1.2]
    have hreported := hreports.scalars key type hkey htype
    generalize obj.scalars key = value at hreported ⊢
    generalize item.lookup (cl.apiName key) = raw at hreported ⊢
    cases hreported with
    | reported hraw =>
        rw [Option.bind_some, hraw.cleanValue]
        rfl
    | omitted => rfl
  · intro key type a hkey htype hvalue
    have hreported := hreports.scalars key type hkey htype
    rw [hvalue] at hreported
    generalize item.lookup (cl.apiName key) = raw at hreported
    cases hreported with
    | reported hraw => exact hraw.ofType

end Report

theorem certClass_hashableLists (item : Dict String Val) :
    certClass.HashableLists item := by
  intro key val hval
  rw [ClientClass.lookup_listSlice] at hval
  split_ifs at hval with htype
  have hkey : Client.cert.ListAttr key := Client.listAttr_of_type htype
  exact absurd rfl hkey.ne_cert

/-! ## A find that succeeds -/

namespace TypedTask

variable {cl : Client} {t : TypedTask cl}

theorem clean_isOk (t : TypedTask cl) :
    ∃ item, cl.cls.clean t.ansibleModule.params = .ok item := by
  refine Dict.traverse_isOk_iff.mpr fun key raw hraw => ?_
  cases htype : cl.cls.paramType key with
  | none => exact ⟨none, rfl⟩
  | some type =>
      have hform := t.params_form hraw htype
      by_cases hlist : type = .list
      · subst hlist
        exact ⟨_, hform.cleanValue_list⟩
      · exact ⟨_, hform.cleanValue_scalar hlist⟩

theorem remEnds_eq_false (t : TypedTask cl)
    (hstate : t.state = .present ∨ t.state = .exact) (found : Found) :
    cl.remEnds t.ansibleModule found = false := by
  change (decide (t.state = .absent) && _) = false
  rcases hstate with hstate | hstate <;> simp [hstate]

theorem find_isOk (hcert : cl ≠ .cert) (huser : cl ≠ .user)
    (hservice : cl ≠ .service) (hrecord : cl ≠ .dnsrecord)
    (hstate : t.state = .present ∨ t.state = .exact) {reply : FindReply}
    {item : Dict String Val} {obj : ObjState}
    (hitem : cl.findResult t.ansibleModule reply = .ok item)
    (hreports : cl.Reports obj item) :
    ∃ found, cl.find t.ansibleModule reply = .ok found := by
  obtain ⟨params, hclean⟩ := t.clean_isOk
  obtain ⟨desired, hdesired⟩ := Client.mungeModuleParams_isOk hcert hclean
  obtain ⟨request, hrequest⟩ : ∃ request,
      cl.findRequest t.ansibleModule = .ok request := by
    cases cl <;> first | exact ⟨_, rfl⟩ | contradiction
  obtain ⟨current, hcurrent⟩ := hreports.mungeResponse_isOk hcert huser
    hservice t.ansibleModule
  obtain ⟨diffs, hdiffs⟩ := Client.computeChanges_isOk hcert hdesired hcurrent
    (desired_listsAs hdesired).hashable
    (hreports.current_listsAs hcert huser hservice hcurrent).hashable
    t.ansibleModule.state
  exact ⟨_, Client.find_of_steps hdesired hrequest hitem hcurrent hdiffs⟩

theorem compares (hcert : cl ≠ .cert) (huser : cl ≠ .user)
    (hservice : cl ≠ .service)
    (hstate : t.state = .present ∨ t.state = .exact) {reply : FindReply}
    {found : Found} {item : Dict String Val} {obj : ObjState}
    (steps : FindSteps cl t.ansibleModule reply found item)
    (hreports : cl.Reports obj item) :
    t.Compares obj found.canonParams found.responseCleaned where
  state := hstate
  desiredLists := desired_listsAs steps.desired
  desiredScalars := desired_scalarsAs hcert hservice hstate steps.desired
  currentLists :=
    hreports.current_listsAs hcert huser hservice steps.current
  currentScalars :=
    hreports.current_scalarsAs hcert huser hservice steps.current
  noDefault _ hkey := argumentSpec_default_of_managed hcert hservice hkey

end TypedTask

end FreeipaProv
