import Herden.Proofs.PublicId
import Herden.Runtime.AppIds

/-!
# `Herden.Proofs.AppIds`: public numbers are written and read one to one

`decode_encodePublicNumber` reads every number back. Here is the other direction
(`encode_of_decodePublicNumber`): a text that reads as a number is the text of that number. So ids
of distinct numbers are distinct, and since no digit is a colon, the parsers find the number again
behind the last one (`rsplitOnce_of_not_mem`).
-/

namespace Herden.Proofs.AppIds

open Herden.Lib (HashMap Text)
open Herden.Lib.Text (afterPrefix rsplitOnce afterPrefix_append)
open Herden.Runtime
open Herden.Runtime.Layout (PaneId)
open Herden.Proofs.PublicId

/-! ### Numbers -/

variable {value number wsIdx : Nat} {text : Text} {first : Char} {app : AppState} {ws : Workspace}

variable {a b : Nat} {separator : Text}

theorem checkedMul_eq_some (h : checkedMul a b = some value) : value = a * b := by
  unfold checkedMul at h
  split at h
  · exact (Option.some.inj h).symm
  · cases h

theorem checkedAdd_eq_some (h : checkedAdd a b = some value) :
    value = a + b ∧ value < usizeEnd := by
  unfold checkedAdd at h
  split at h
  next hlt =>
    obtain rfl := Option.some.inj h
    exact ⟨rfl, hlt⟩
  next => cases h

/-- One more digit behind a number. -/
theorem decodeDigit_eq_some {decoded : Nat} {ch : Char} (h : decodeDigit decoded ch = some value) :
    ∃ digit < 32, publicIdAlphabet.getD digit '0' = ch ∧ value = decoded * 32 + (digit + 1)
      ∧ value < usizeEnd := by
  unfold decodeDigit at h
  simp only [Option.bind_eq_bind, Option.bind_eq_some_iff] at h
  obtain ⟨digit, hdigit, shifted, hshifted, hsum⟩ := h
  obtain ⟨hlt, hch, -⟩ := List.findIdx?_eq_some_iff_getElem.mp hdigit
  rw [length_publicIdAlphabet] at hshifted
  obtain rfl := checkedMul_eq_some hshifted
  obtain ⟨rfl, hvalue⟩ := checkedAdd_eq_some hsum
  refine ⟨digit, by rwa [length_publicIdAlphabet] at hlt, ?_, rfl, hvalue⟩
  rw [List.getD_eq_getElem?_getD, List.getElem?_eq_getElem hlt]
  exact of_decide_eq_true hch

/-- The digits of a number that was read are the text it was read from. -/
theorem encodeDigits_of_decode (h : text.foldlM decodeDigit 0 = some value) {fuel : Nat}
    (hfuel : value ≤ fuel) : (encodeDigits fuel value).reverse = text := by
  induction text using List.reverseRecOn generalizing value fuel with
  | nil =>
    obtain rfl := Option.some.inj h
    cases fuel with
    | zero => rfl
    | succ fuel => rfl
  | append_singleton before ch ih =>
    rw [List.foldlM_append] at h
    obtain ⟨decoded, hbefore, hlast⟩ := Option.bind_eq_some_iff.mp h
    have hdigit : decodeDigit decoded ch = some value := by
      simpa using hlast
    obtain ⟨digit, hsmall, hch, hvalue, -⟩ := decodeDigit_eq_some hdigit
    cases fuel with
    | zero => omega
    | succ fuel =>
      have hmod : (value - 1) % 32 = digit := by omega
      have hdiv : (value - 1) / 32 = decoded := by omega
      rw [encodeDigits, if_neg (by omega), length_publicIdAlphabet, hmod, hdiv, hch,
        List.reverse_cons, ih hbefore (by omega)]

theorem encode_of_decodePublicNumber {text : String} (hpos : 1 ≤ value)
    (h : decodePublicNumber text = some value) : encodePublicNumber value = text := by
  unfold encodePublicNumber
  rw [if_neg (by omega), encodeDigits_of_decode h (Nat.le_refl value), String.ofList_toList]

theorem encodePublicNumber_inj {m n : Nat} (hm : 1 ≤ m) (hmlt : m < usizeEnd) (hn : 1 ≤ n)
    (hnlt : n < usizeEnd) (h : encodePublicNumber m = encodePublicNumber n) : m = n := by
  have hread := decode_encodePublicNumber hm hmlt
  rw [h, decode_encodePublicNumber hn hnlt] at hread
  exact (Option.some.inj hread).symm

/-! ### Separators -/

/-- No digit is one of the separators. -/
theorem colon_not_mem_encode (hpos : 1 ≤ value) : ':' ∉ (encodePublicNumber value).toList := by
  unfold encodePublicNumber
  rw [if_neg (by omega), String.toList_ofList, List.mem_reverse]
  have hdigits : ∀ fuel value, ':' ∉ encodeDigits fuel value := by
    intro fuel
    induction fuel with
    | zero => exact fun value => List.not_mem_nil
    | succ fuel ih =>
      intro value hmem
      rw [encodeDigits] at hmem
      split at hmem
      · cases hmem
      · rcases List.mem_cons.mp hmem with hdigit | hmem
        · have hall : ∀ digit < 32, publicIdAlphabet.getD digit '0' ≠ ':' := by decide +kernel
          rw [length_publicIdAlphabet] at hdigit
          exact hall _ (Nat.mod_lt _ (by decide)) hdigit.symm
        · exact ih _ hmem
  exact hdigits value value

theorem rsplitOnce_eq_none (h : first ∉ text) : rsplitOnce (first :: separator) text = none := by
  induction text with
  | nil => rfl
  | cons ch rest ih =>
    rw [List.mem_cons, not_or] at h
    have hfirst : afterPrefix (first :: separator) (ch :: rest) = none := by
      unfold afterPrefix
      rw [if_neg]
      rw [List.isPrefixOf_cons_cons, Bool.and_eq_true, beq_iff_eq]
      exact fun heq => h.1 heq.1
    rw [rsplitOnce, ih h.2, hfirst]
    rfl

/-- The last separator is the one behind which its first character does not come again. -/
theorem rsplitOnce_of_not_mem {after : Text} (before : Text) (h : first ∉ separator ++ after) :
    rsplitOnce (first :: separator) (before ++ first :: (separator ++ after))
      = some (before, after) := by
  induction before with
  | nil =>
    rw [List.nil_append, rsplitOnce, rsplitOnce_eq_none h]
    have happend := afterPrefix_append (first :: separator) after
    rw [List.cons_append] at happend
    rw [happend]
    rfl
  | cons ch before ih => rw [List.cons_append, rsplitOnce, ih]

/-! ### Ids -/

/-- The text of an id, its separator in front of the digits. -/
theorem toList_publicPaneIdForNumber (workspaceId : String) (number : Nat) :
    (publicPaneIdForNumber workspaceId number).toList
      = workspaceId.toList ++ ':' :: (['p'] ++ (encodePublicNumber number).toList) := by
  unfold publicPaneIdForNumber
  rw [String.toList_append, String.toList_append, List.append_assoc]
  rfl

theorem toList_publicTabIdForNumber (workspaceId : String) (number : Nat) :
    (publicTabIdForNumber workspaceId number).toList
      = workspaceId.toList ++ ':' :: ([] ++ 't' :: (encodePublicNumber number).toList) := by
  unfold publicTabIdForNumber
  rw [String.toList_append, String.toList_append, List.append_assoc]
  rfl

theorem split_publicPaneId (workspaceId : String) (hpos : 1 ≤ number) :
    rsplitOnce ":p".toList (publicPaneIdForNumber workspaceId number).toList
      = some (workspaceId.toList, (encodePublicNumber number).toList) := by
  have hseparator : ":p".toList = [':', 'p'] := rfl
  rw [toList_publicPaneIdForNumber, hseparator]
  refine rsplitOnce_of_not_mem workspaceId.toList ?_
  rw [List.singleton_append, List.mem_cons, not_or]
  exact ⟨by decide, colon_not_mem_encode hpos⟩

theorem split_publicTabId (workspaceId : String) (hpos : 1 ≤ number) :
    rsplitOnce [':'] (publicTabIdForNumber workspaceId number).toList
      = some (workspaceId.toList, 't' :: (encodePublicNumber number).toList) := by
  rw [toList_publicTabIdForNumber]
  refine rsplitOnce_of_not_mem workspaceId.toList ?_
  rw [List.nil_append, List.mem_cons, not_or]
  exact ⟨by decide, colon_not_mem_encode hpos⟩

/-- A colon does not complete an opening that the id of the workspace lacks. -/
theorem afterPrefix_colon {second : Char} (hfirst : first ≠ ':') (hsecond : second ≠ ':')
    (h : afterPrefix [first, second] text = none) (rest : Text) :
    afterPrefix [first, second] (text ++ ':' :: rest) = none := by
  unfold afterPrefix at h ⊢
  rw [ite_eq_right_iff] at h
  refine if_neg fun hfront => ?_
  match text with
  | [] =>
    rw [List.nil_append, List.isPrefixOf_cons_cons, Bool.and_eq_true, beq_iff_eq] at hfront
    exact hfirst hfront.1
  | [ch] =>
    rw [List.singleton_append, List.isPrefixOf_cons_cons, List.isPrefixOf_cons_cons,
      Bool.and_eq_true, Bool.and_eq_true, beq_iff_eq, beq_iff_eq] at hfront
    exact hsecond hfront.2.1
  | ch :: other :: later =>
    rw [List.cons_append, List.cons_append, List.isPrefixOf_cons_cons, List.isPrefixOf_cons_cons]
      at hfront
    rw [List.isPrefixOf_cons_cons, List.isPrefixOf_cons_cons] at h
    cases h hfront

/-- The id of a workspace is read as its index. -/
theorem parseWorkspaceId_id (hids : (app.workspaces.map (·.id)).Nodup)
    (hws : app.workspaces[wsIdx]? = some ws) : app.parseWorkspaceId ws.id.toList = some wsIdx := by
  obtain ⟨hlt, hget⟩ := List.getElem?_eq_some_iff.mp hws
  have hfind : (app.workspaces.findIdx? fun workspace => workspace.id.toList = ws.id.toList)
      = some wsIdx := by
    refine List.findIdx?_eq_some_iff_getElem.mpr ⟨hlt, by rw [hget]; exact decide_eq_true rfl, ?_⟩
    intro j hj hsame
    have hid : app.workspaces[j].id = ws.id := String.toList_inj.mp (of_decide_eq_true hsame)
    have hlength : (app.workspaces.map (·.id)).length = app.workspaces.length := List.length_map _
    have hget' : (app.workspaces.map (·.id)).get ⟨j, by omega⟩
        = (app.workspaces.map (·.id)).get ⟨wsIdx, by omega⟩ := by
      simp only [List.get_eq_getElem, List.getElem_map, hget]
      exact hid
    have hidx := Fin.mk.inj (List.nodup_iff_injective_get.mp hids hget')
    omega
  unfold AppState.parseWorkspaceId
  rw [hfind]
  rfl

/-- The public id of a pane is read as a pane of the workspace with the same number. -/
theorem parsePaneId_publicPaneId (hids : (app.workspaces.map (·.id)).Nodup)
    (hws : app.workspaces[wsIdx]? = some ws) (hopen : afterPrefix "p_".toList ws.id.toList = none)
    {paneId : PaneId} (hnumber : ws.publicPaneNumbers.get paneId = some number) (hpos : 1 ≤ number)
    (hlt : number < usizeEnd)
    (halias : app.publicPaneIdAliases.get (publicPaneIdForNumber ws.id number) = none) :
    ∃ found, app.parsePaneId (publicPaneIdForNumber ws.id number).toList = some (wsIdx, found)
      ∧ ws.publicPaneNumbers.get found = some number := by
  have hclosed : afterPrefix "p_".toList (publicPaneIdForNumber ws.id number).toList = none := by
    rw [toList_publicPaneIdForNumber]
    exact afterPrefix_colon (by decide) (by decide) hopen _
  obtain ⟨found, hfound, hget⟩ : ∃ found, ws.paneWithNumber number = some found
      ∧ ws.publicPaneNumbers.get found = some number := by
    unfold Workspace.paneWithNumber
    have hmem := HashMap.get_eq_some_iff.mp hnumber
    cases hentry : ws.publicPaneNumbers.entries.find? fun entry => entry.2 = number with
    | none =>
      rw [List.find?_eq_none] at hentry
      exact absurd (decide_eq_true rfl) (hentry _ hmem)
    | some entry =>
      have hentryNumber : entry.2 = number := by simpa using List.find?_some hentry
      refine ⟨entry.1, rfl, HashMap.get_eq_some_iff.mpr ?_⟩
      rw [← hentryNumber]
      exact List.mem_of_find?_eq_some hentry
  refine ⟨found, ?_, hget⟩
  unfold AppState.parsePaneId
  rw [String.ofList_toList, halias]
  dsimp only
  rw [hclosed]
  dsimp only
  rw [split_publicPaneId ws.id hpos]
  dsimp only
  rw [parseWorkspaceId_id hids hws, String.ofList_toList, decode_encodePublicNumber hpos hlt]
  simp only [Option.bind_eq_bind, Option.bind_some, hws, hfound]
  rfl

/-- The public id of a tab is read as a tab of the workspace with the same number. -/
theorem parseTabId_publicTabId (hids : (app.workspaces.map (·.id)).Nodup)
    (hws : app.workspaces[wsIdx]? = some ws) (hopen : afterPrefix "t_".toList ws.id.toList = none)
    {tab : Tab} (htab : tab ∈ ws.tabs) (hpos : 1 ≤ tab.number) (hlt : tab.number < usizeEnd) :
    ∃ tabIdx found, app.parseTabId (publicTabIdForNumber ws.id tab.number).toList
        = some (wsIdx, tabIdx)
      ∧ ws.tabs[tabIdx]? = some found ∧ found.number = tab.number := by
  have hclosed : afterPrefix "t_".toList (publicTabIdForNumber ws.id tab.number).toList = none := by
    rw [toList_publicTabIdForNumber]
    exact afterPrefix_colon (by decide) (by decide) hopen _
  obtain ⟨tabIdx, hfind⟩ : ∃ tabIdx, ws.tabs.findIdx? (·.number = tab.number) = some tabIdx := by
    rw [← Option.isSome_iff_exists, List.findIdx?_isSome, List.any_eq_true]
    exact ⟨tab, htab, decide_eq_true rfl⟩
  obtain ⟨hidx, hnumber, -⟩ := List.findIdx?_eq_some_iff_getElem.mp hfind
  have hget : ws.tabs[tabIdx]? = some ws.tabs[tabIdx] := List.getElem?_eq_getElem hidx
  refine ⟨tabIdx, ws.tabs[tabIdx], ?_, hget, of_decide_eq_true hnumber⟩
  have hencoded : afterPrefix ['t'] ('t' :: (encodePublicNumber tab.number).toList)
      = some (encodePublicNumber tab.number).toList := afterPrefix_append ['t'] _
  unfold AppState.parseTabId
  rw [hclosed]
  dsimp only
  rw [split_publicTabId ws.id hpos]
  simp only [Option.bind_eq_bind, Option.bind_some, parseWorkspaceId_id hids hws, hencoded,
    String.ofList_toList, decode_encodePublicNumber hpos hlt, hws, hfind, hget]
  rfl

/-! ### The numeration -/

/-- Numbers and texts correspond one to one. Public ids of distinct numbers in a workspace differ,
and the parsers read each back as its own number, where no alias was left for the id of the pane and
the id of the workspace does not look like an id of an older form. -/
theorem public_numbers_bijective :
    (∀ n, 1 ≤ n → n < usizeEnd → decodePublicNumber (encodePublicNumber n) = some n)
      ∧ (∀ text n, 1 ≤ n → decodePublicNumber text = some n → encodePublicNumber n = text)
      ∧ (∀ workspaceId m n, 1 ≤ m → m < usizeEnd → 1 ≤ n → n < usizeEnd → m ≠ n →
        publicPaneIdForNumber workspaceId m ≠ publicPaneIdForNumber workspaceId n
          ∧ publicTabIdForNumber workspaceId m ≠ publicTabIdForNumber workspaceId n)
      ∧ (∀ (app : AppState) (wsIdx : Nat) (ws : Workspace),
        (app.workspaces.map (·.id)).Nodup → app.workspaces[wsIdx]? = some ws →
        (∀ (paneId : PaneId) (number : Nat), afterPrefix "p_".toList ws.id.toList = none →
          ws.publicPaneNumbers.get paneId = some number → 1 ≤ number → number < usizeEnd →
          app.publicPaneIdAliases.get (publicPaneIdForNumber ws.id number) = none →
          ∃ found, app.parsePaneId (publicPaneIdForNumber ws.id number).toList = some (wsIdx, found)
            ∧ ws.publicPaneNumbers.get found = some number)
        ∧ ∀ tab ∈ ws.tabs, afterPrefix "t_".toList ws.id.toList = none → 1 ≤ tab.number →
          tab.number < usizeEnd →
          ∃ tabIdx found, app.parseTabId (publicTabIdForNumber ws.id tab.number).toList
              = some (wsIdx, tabIdx)
            ∧ ws.tabs[tabIdx]? = some found ∧ found.number = tab.number) := by
  refine ⟨?_, ?_, ?_, ?_⟩
  · intro n hpos hlt
    exact decode_encodePublicNumber hpos hlt
  · intro text n hpos hdecode
    exact encode_of_decodePublicNumber hpos hdecode
  · intro workspaceId m n hm hmlt hn hnlt hne
    constructor
    · intro hsame
      exact hne (encodePublicNumber_inj hm hmlt hn hnlt (String.append_right_inj _ |>.mp hsame))
    · intro hsame
      exact hne (encodePublicNumber_inj hm hmlt hn hnlt (String.append_right_inj _ |>.mp hsame))
  · intro app wsIdx ws hids hws
    constructor
    · intro paneId number hopen hnumber hpos hlt halias
      exact parsePaneId_publicPaneId hids hws hopen hnumber hpos hlt halias
    · intro tab htab hopen hpos hlt
      exact parseTabId_publicTabId hids hws hopen htab hpos hlt

/-- A workspace with pane 33 in tab 2. -/
def secondTab : Workspace where
  id := "w1"
  customName := none
  publicPaneNumbers := HashMap.insert ∅ ⟨7⟩ 33
  nextPublicPaneNumber := 34
  nextPublicTabNumber := 3
  tabs := [.new 2 ⟨7⟩ "terminal"]
  activeTab := 0

theorem public_numbers_bijective_secondTab :
    publicPaneIdForNumber "w1" 33 = "w1:p11"
      ∧ ∃ found, (AppState.mk [secondTab] ∅ ∅).parsePaneId
          (publicPaneIdForNumber "w1" 33).toList = some (0, found)
        ∧ secondTab.publicPaneNumbers.get found = some 33 := by
  have hpanes := (public_numbers_bijective.2.2.2 ⟨[secondTab], ∅, ∅⟩ 0 secondTab
    (by decide) rfl).1
  exact ⟨by decide +kernel, hpanes ⟨7⟩ 33 (by decide) (HashMap.get_insert_self _ _ _) (by decide)
    (by decide) (HashMap.get_empty _)⟩

end Herden.Proofs.AppIds
