import ViewFilters.Proofs.Cli.Chain
import ViewFilters.Proofs.Config.ReadBack
import ViewFilters.Proofs.Criteria.LastWins
import ViewFilters.Proofs.Json.ReadBack

/-!
# ViewFilters.Proofs.Cli.Pagination

The page and the page size that come from outside are always ones that a list can be asked
for.  They come three ways, and on none of them a zero gets in:

```
file  → configuration    refused when its page size is zero
query → criteria         a count that is no number above zero gives way to the first page
                         or to the page size of the configuration
criteria → query         counts above zero are written after all filters, and read back
```

What is printed for a view tells its page and page size: as members of a JSON object, or in
words at the end (`Reports`).  The statement on all of these is `pagination_usable`.
-/

namespace ViewFilters

/-- A page and a page size that a list can be asked for. -/
structure Pagination.IsUsable (p : Pagination) : Prop where
  page : 1 ≤ p.page.toNat ∧ p.page.toNat ≤ 4294967295
  size : 1 ≤ p.size.toNat ∧ p.size.toNat ≤ 4294967295

theorem Pagination.isUsable_iff {p : Pagination} : p.IsUsable ↔ p.page ≠ 0 ∧ p.size ≠ 0 := by
  have hcount : ∀ n : UInt32, (1 ≤ n.toNat ∧ n.toNat ≤ 4294967295) ↔ n ≠ 0 := by
    intro n
    have hlt := n.toNat_lt
    rw [Ne, ← UInt32.toNat_inj, UInt32.toNat_zero]
    omega
  rw [← hcount, ← hcount]
  exact ⟨fun h => ⟨h.page, h.size⟩, fun h => ⟨h.1, h.2⟩⟩

/-! ## from a file -/

namespace Config

variable {config : Config}

theorem defaultPageSize_of_validate {read : Config} (h : read.validate = .ok config) :
    config.defaultPageSize ≠ 0 := by
  rw [validate] at h
  split at h
  · contradiction
  · next hne =>
    cases h
    exact hne

/-- A configuration that is loaded leaves pages some room. -/
theorem defaultPageSize_of_load {file : ConfigFile} (h : load file = .ok config) :
    config.defaultPageSize ≠ 0 := by
  cases file with
  | vacant | barred =>
      cases h
      decide
  | directory => contradiction
  | file bytes =>
      rw [load] at h
      split at h
      · rw [ofText] at h
        split at h
        · exact defaultPageSize_of_validate h
        · contradiction
      · contradiction

end Config

/-! ## from a query -/

namespace View

variable {β : Type} {ctx : Context}

theorem pagination_mount (ctx : Context) (history : History) (now : Nat) :
    (mount ctx history now : View β × List Event).1.editor.criteria.pagination =
      (Criteria.ofQuery ctx history.current).1.pagination := by
  simp only [mount, pagination_keepToProject, Editor.criteria_mount]

/-- Whatever the query, a view is mounted with a usable page and page size. -/
theorem isUsable_mount (h : ctx.defaultPageSize ≠ 0) (history : History) (now : Nat) :
    (mount ctx history now : View β × List Event).1.editor.criteria.pagination.IsUsable := by
  have hlinkable := Criteria.linkable_ofQuery ctx history.current
  rw [pagination_mount, Pagination.isUsable_iff]
  refine ⟨hlinkable.page_ne, ?_⟩
  obtain hsize | hsize := hlinkable.pageSize
  · exact hsize
  · rw [← hsize] at h
    exact h

/-- What a view requests is its page, at its page size. -/
theorem pagination_request (v : View β) :
    (⟨v.request.page, v.request.pageSize⟩ : Pagination) = v.editor.criteria.pagination := rfl

end View

/-! ## from the link to some criteria -/

theorem Pagination.pairs_of_isUsable {p : Pagination} (h : p.IsUsable) :
    p.pairs = [(pageKey, Decimal.text p.page.toNat), (pageSizeKey, Decimal.text p.size.toNat)] := by
  obtain ⟨hpage, hsize⟩ := isUsable_iff.1 h
  rw [pairs, countPair, if_neg hpage, countPair, if_neg hsize, List.singleton_append]

/-- The page and the page size of any criteria are read back from their link: they are written
last, so whatever the filters are, their values are the last ones of their keys. -/
theorem Criteria.pagination_ofQuery_query (ctx : Context) (policy : Policy) {c : Criteria}
    (h : c.pagination.IsUsable) : (ofQuery ctx (c.query policy)).1.pagination = c.pagination := by
  have hread : FormUrl.read (dropQuestionMark (c.query policy)) = c.pairs policy := by
    rw [query, dropQuestionMark_write, FormUrl.read_write]
  have hkeys : (pageKey == pageSizeKey) = false := by decide
  have hlastPage : lastValue? pageKey (c.pairs policy) =
      some (Decimal.text c.pagination.page.toNat) := by
    simp [lastValue?, pairs, Pagination.pairs_of_isUsable h, List.lookup_cons, hkeys]
  have hlastSize : lastValue? pageSizeKey (c.pairs policy) =
      some (Decimal.text c.pagination.size.toNat) := by
    simp [lastValue?, pairs, Pagination.pairs_of_isUsable h]
  obtain ⟨hpage, hsize⟩ := Pagination.isUsable_iff.1 h
  have hpageRead : (ofQuery ctx (c.query policy)).1.page = c.pagination.page := by
    rw [page_ofQuery, hread, hlastPage, Option.bind_some, readCount?_text hpage, Option.getD_some]
  have hsizeRead : (ofQuery ctx (c.query policy)).1.pageSize = c.pagination.size := by
    rw [pageSize_ofQuery, hread, hlastSize, Option.bind_some, readCount?_text hsize,
      Option.getD_some]
  generalize (ofQuery ctx (c.query policy)).1 = d at hpageRead hsizeRead ⊢
  exact congrArg₂ Pagination.mk hpageRead hsizeRead

/-! ## what is printed -/

theorem Value.wellFormed_toJson (value : Value) : value.toJson.WellFormed := by
  cases value with
  | text s => exact Json.wellFormed_ofText s
  | list items => exact Json.wellFormed_ofTexts items
  | flag b => exact .bool b

namespace Cli

/-- JSON that tells a page and a page size, with one member for each. -/
def TellsPage (p : Pagination) (out : String) : Prop :=
  ∃ j, Json.read? out = some j ∧ j.record? [pageKey, pageSizeKey] =
    some [some (Json.ofNat p.page.toNat), some (Json.ofNat p.size.toNat)]

/-- What a command prints for a view tells the page and the page size, in words at the end or
as JSON. -/
inductive Reports (colors : Bool) (p : Pagination) : Command → String → Prop where
  | words (query chips : String) :
      Reports colors p (.show query false) (chips ++ pageLine colors p)
  | json (query : String) {out : String} (h : TellsPage p out) :
      Reports colors p (.show query true) out
  | request (query : String) (joined : Bool) {out : String} (h : TellsPage p out) :
      Reports colors p (.api query joined) out

/-- JSON on lines of its own is read back. -/
theorem read?_line_pretty {j : Json} (h : j.WellFormed) : Json.read? (line j.pretty) = some j := by
  have hend : Json.IsBlank ['\n'] := Json.isBlank_cons rfl Json.isBlank_nil
  have hread := Json.read?_of_written (.padded Json.isBlank_nil (Json.written_layout h 0) hend)
  rwa [List.nil_append, String.ofList_append] at hread

/-- A record with a page and a page size, after a member of another name and before others. -/
theorem tellsPage_ofMembers {name : String} {j : Json} {rest : List (String × Json)}
    (p : Pagination) (hnames : (name :: pageKey :: pageSizeKey :: rest.map (·.1)).Nodup)
    (hj : j.WellFormed) (hrest : ∀ m ∈ rest, m.2.WellFormed) :
    TellsPage p (line (Json.ofMembers ((name, j) :: (pageKey, Json.ofNat p.page.toNat) ::
      (pageSizeKey, Json.ofNat p.size.toNat) :: rest)).pretty) := by
  refine ⟨_, read?_line_pretty (Json.wellFormed_ofMembers ?_), ?_⟩
  · simpa [hj, Json.wellFormed_ofNat] using hrest
  · obtain ⟨hne, -⟩ := List.nodup_cons.1 hnames
    simp only [List.mem_cons, not_or] at hne
    have hkeys : (pageSizeKey == pageKey) = false := by decide
    have hpage : (pageKey == name) = false := beq_false_of_ne (Ne.symm hne.1)
    have hsize : (pageSizeKey == name) = false := beq_false_of_ne (Ne.symm hne.2.1)
    rw [Json.record?_ofMembers (by simpa using hnames)]
    simp [List.lookup_cons, hkeys, hpage, hsize]

theorem wellFormed_filterJson (f : Filter) : (filterJson f).WellFormed := by
  refine Json.wellFormed_ofMembers ?_
  simp [Json.wellFormed_ofText, Value.wellFormed_toJson]

theorem tellsPage_criteriaJson (policy : Policy) (c : Criteria) :
    TellsPage c.pagination (line (criteriaJson policy c).pretty) := by
  have hfilters : (Json.array (c.filters.map filterJson)).WellFormed :=
    .array (List.forall_mem_map.2 fun f _ => wellFormed_filterJson f)
  have hquery := Json.wellFormed_ofText (c.query policy)
  exact tellsPage_ofMembers c.pagination (by simp [pageKey, pageSizeKey]) hfilters
    (List.forall_mem_singleton.2 hquery)

theorem tellsPage_request (r : Request) :
    TellsPage ⟨r.page, r.pageSize⟩ (line r.toJson.pretty) ∧
      TellsPage ⟨r.page, r.pageSize⟩ (line r.toJoinedJson.pretty) := by
  have hnames : [Request.filterKey, pageKey, pageSizeKey].Nodup := by decide
  have hnone : ∀ m ∈ ([] : List (String × Json)), m.2.WellFormed := by simp
  exact ⟨tellsPage_ofMembers ⟨r.page, r.pageSize⟩ hnames (Json.wellFormed_ofTexts r.filter) hnone,
    tellsPage_ofMembers ⟨r.page, r.pageSize⟩ hnames (Json.wellFormed_ofText r.joinedFilter) hnone⟩

/-- A command that is given a query reports the page of a view of it. -/
theorem reports_respond {command : Command} {query : String} (colors : Bool) (config : Config)
    (dir : String) (file : ConfigFile)
    (h : (∃ json, command = .show query json) ∨ ∃ joined, command = .api query joined) :
    (respond colors config dir file command).code = 0 ∧
      Reports colors (openView config.context query).1.editor.criteria.pagination command
        (respond colors config dir file command).stdout := by
  -- the view is opened on the query, and then nothing but its criteria counts
  obtain ⟨json, rfl⟩ | ⟨joined, rfl⟩ := h
  · rw [respond]
    generalize openView config.context query = opened
    refine ⟨rfl, ?_⟩
    cases json with
    | false => exact .words query _
    | true => exact .json query (tellsPage_criteriaJson _ _)
  · rw [respond]
    generalize openView config.context query = opened
    refine ⟨rfl, ?_⟩
    obtain ⟨hseparate, hjoined⟩ := tellsPage_request opened.1.request
    cases joined with
    | false => exact .request query false hseparate
    | true => exact .request query true hjoined

/-- A project in place of the configured one leaves the page size. -/
theorem defaultPageSize_forProject (config : Config) (project : Option String) :
    (forProject config project).context.defaultPageSize = config.defaultPageSize := by
  cases project <;> rfl

/-- A view is mounted with a usable page and page size once the configuration is loaded. -/
theorem isUsable_mount_of_load (β : Type) {file : ConfigFile} {config : Config}
    (h : Config.load file = .ok config) (project : Option String) (history : History) (now : Nat) :
    (View.mount (forProject config project).context history now :
      View β × List Event).1.editor.criteria.pagination.IsUsable := by
  refine View.isUsable_mount ?_ history now
  rw [defaultPageSize_forProject]
  exact Config.defaultPageSize_of_load h

/-- The configuration is loaded where the program looks for one. -/
def Invocation.RunsWith (env : Surroundings) (i : Invocation) (config : Config) : Prop :=
  ∃ dir, env.directory i.configDir = some dir ∧ Config.load (env.fileIn dir) = .ok config

variable {env : Surroundings} {i : Invocation}

/-- With a configuration that is loaded, a command for a page reports a usable one: that of a view
of its query. -/
theorem reports_of_runsWith {config : Config} {query : String} (hruns : i.RunsWith env config)
    (h : (∃ json, i.command = .show query json) ∨ ∃ joined, i.command = .api query joined) :
    ∃ p, (openView (forProject config i.project).context query).1.editor.criteria.pagination = p ∧
      p.IsUsable ∧ (i.respond env).code = 0 ∧
      Reports env.colors p i.command (i.respond env).stdout := by
  obtain ⟨dir, hdir, hload⟩ := hruns
  have husable := isUsable_mount_of_load Json hload i.project (.start query) 0
  rw [← openView] at husable
  have hreports := reports_respond env.colors (forProject config i.project) dir (env.fileIn dir) h
  have hrespond : i.respond env =
      respond env.colors (forProject config i.project) dir (env.fileIn dir) i.command := by
    simp only [Invocation.respond, hdir, hload]
  rw [hrespond]
  exact ⟨_, rfl, husable, hreports⟩

/-- Without one, every command fails and prints nothing. -/
theorem respond_of_not_runsWith (h : ∀ config, ¬ i.RunsWith env config) :
    (i.respond env).code = 1 ∧ (i.respond env).stdout = "" := by
  rw [Invocation.respond]
  cases hdir : env.directory i.configDir with
  | none => exact ⟨rfl, rfl⟩
  | some dir =>
      dsimp only
      cases hload : Config.load (env.fileIn dir) with
      | error e => exact ⟨rfl, rfl⟩
      | ok config => exact absurd ⟨dir, hdir, hload⟩ (h config)

/-- **Usable pagination**: whatever is in the file of a configuration that is loaded, and whatever
the query, a view is mounted with a page and a page size between 1 and the largest number of 32
bits, and these are what it requests.  What the commands for a page print tells them; without a
configuration they fail and print nothing.  And every page and page size in this range is read back
from the link to any criteria that have them. -/
theorem pagination_usable (β : Type) :
    (∀ (file : ConfigFile) (config : Config), Config.load file = .ok config →
      ∀ (project : Option String) (history : History) (now : Nat) (v : View β),
        (View.mount (forProject config project).context history now).1 = v →
          v.editor.criteria.pagination.IsUsable ∧
          (⟨v.request.page, v.request.pageSize⟩ : Pagination) = v.editor.criteria.pagination) ∧
    (∀ (env : Surroundings) (i : Invocation) (query : String),
      (∃ json, i.command = .show query json) ∨ (∃ joined, i.command = .api query joined) →
        (∀ config, i.RunsWith env config → ∃ p,
          (openView (forProject config i.project).context query).1.editor.criteria.pagination = p ∧
          p.IsUsable ∧ (i.respond env).code = 0 ∧
          Reports env.colors p i.command (i.respond env).stdout) ∧
        ((∀ config, ¬ i.RunsWith env config) →
          (i.respond env).code = 1 ∧ (i.respond env).stdout = "")) ∧
    (∀ (ctx : Context) (policy : Policy) (c : Criteria), c.pagination.IsUsable →
      (Criteria.ofQuery ctx (c.query policy)).1.pagination = c.pagination) := by
  refine ⟨?mounted, ?reported, ?linked⟩
  case mounted =>
    intro file config hload project history now v hv
    have husable := isUsable_mount_of_load β hload project history now
    rw [hv] at husable
    exact ⟨husable, v.pagination_request⟩
  case reported =>
    intro env i query hcommand
    exact ⟨fun config hruns => reports_of_runsWith hruns hcommand, respond_of_not_runsWith⟩
  case linked => exact fun ctx policy c h => Criteria.pagination_ofQuery_query ctx policy h

/-- The largest page size from a file, with a query of zeros; no file at all; and criteria with a
filter that is called like the page. -/
theorem pagination_usable_of_extremes :
    let file : ConfigFile := .file (Utf8.encode Config.intricate.toText.toList)
    let env : Surroundings := ⟨false, "/", false, some "/home", fun _ => .vacant⟩
    let i : Invocation := ⟨none, some "p", false, .api "page=-1&pageSize=4294967296" true⟩
    let ctx : Context := Config.standard.context
    let c : Criteria := ⟨[⟨"page", .eq, .text "7"⟩], ⟨1, 4294967295⟩⟩
    (∃ v : View Json, (View.mount (forProject Config.intricate none).context
        (.start "?page=0&pageSize=00") 0).1 = v ∧ Config.load file = .ok Config.intricate ∧
        v.editor.criteria.pagination.IsUsable) ∧
      (∃ p, p.IsUsable ∧ (i.respond env).code = 0 ∧
        Reports false p i.command (i.respond env).stdout) ∧
      (Criteria.ofQuery ctx (c.query ctx.policy)).1.pagination = ⟨1, 4294967295⟩ := by
  intro file env i ctx c
  obtain ⟨hmounted, hreported, hlinked⟩ := pagination_usable Json
  have hload : Config.load file = .ok Config.intricate := by
    rw [Config.load_toText, Config.validate, if_neg (by decide)]
  have husable := (hmounted file _ hload none (.start "?page=0&pageSize=00") 0 _ rfl).1
  refine ⟨⟨_, rfl, hload, husable⟩, ?_, ?_⟩
  · have hruns : i.RunsWith env Config.standard := ⟨"/home", rfl, rfl⟩
    obtain ⟨p, -, hreports⟩ := (hreported env i _ (Or.inr ⟨true, rfl⟩)).1 _ hruns
    exact ⟨p, hreports⟩
  · exact hlinked _ _ c (Pagination.isUsable_iff.2 ⟨by decide, by decide⟩)

end Cli

end ViewFilters
