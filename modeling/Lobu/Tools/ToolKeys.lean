import Lobu.Foundation.Json
import Lobu.Foundation.PercentEncoding
import Lobu.Worker.ToolPolicy

namespace Lobu.Tools

open Lobu.Foundation
open Lobu.Worker (trimmed)

/-! # Tools and their keys

A discovered tool belongs to a server and has a name there; texts of two kinds
stand for that pair.
-/

/-- A tool as its server describes it; the name, where it has one, is a text. -/
structure McpToolDef where
  fields : List (String × Json)
  named : (fields.lookup "name").all (fun name => name.string?.isSome) = true := by decide
deriving DecidableEq

namespace McpToolDef

def json (tool : McpToolDef) : Json := .object tool.fields

def name (tool : McpToolDef) : Option String :=
  (tool.json.get? "name").bind Json.string?

def inputSchema (tool : McpToolDef) : Option Json :=
  tool.json.get? "inputSchema"

/-- `{ ...tool, name }` -/
def withName (tool : McpToolDef) (name : String) : McpToolDef where
  fields := Json.setField "name" (.string name) tool.fields
  named := by
    have read := Json.get?_set_same tool.fields "name" (.string name)
    simp only [Json.set, Json.get?] at read
    rw [read]
    rfl

@[simp] theorem name_withName (tool : McpToolDef) (name : String) : (tool.withName name).name = some name := by
  have read := Json.get?_set_same tool.fields "name" (.string name)
  simp only [Json.set] at read
  simp only [McpToolDef.name, json, withName, read]
  rfl

end McpToolDef

def toolIdentityKey (mcpId name : String) : String :=
  bracketed [quoted mcpId, quoted name]

def qualifiedToolKey (mcpId name : String) : String :=
  encodeURIComponent mcpId ++ "/" ++ encodeURIComponent name

example : qualifiedToolKey "git/hub" "get pr" = "git%2Fhub/get%20pr" := by decide

theorem toolIdentityKey_toList (mcpId name : String) : (toolIdentityKey mcpId name).toList =
    '[' :: ((quoted mcpId).toList ++ ',' :: ((quoted name).toList ++ [']'])) := by
  simp [toolIdentityKey, bracketed, String.toList_append]

theorem qualifiedToolKey_toList (mcpId name : String) : (qualifiedToolKey mcpId name).toList =
    (encodeURIComponent mcpId).toList ++ '/' :: (encodeURIComponent name).toList := by
  simp [qualifiedToolKey, String.toList_append]

theorem toolIdentityKey_inj {mcpId name otherMcp otherName : String} :
    toolIdentityKey mcpId name = toolIdentityKey otherMcp otherName ↔ mcpId = otherMcp ∧ name = otherName := by
  constructor
  · intro same
    have texts := congrArg String.toList same
    rw [toolIdentityKey_toList, toolIdentityKey_toList, List.cons.injEq] at texts
    obtain ⟨servers, rest⟩ := quoted_cancel texts.2
    obtain ⟨names, -⟩ := quoted_cancel (List.cons.inj rest).2
    exact ⟨servers, names⟩
  · rintro ⟨rfl, rfl⟩
    rfl

theorem slash_not_encoded (text : String) : '/' ∉ (encodeURIComponent text).toList := by
  intro member
  cases encodeURIComponent_chars text _ member

theorem qualifiedToolKey_inj {mcpId name otherMcp otherName : String} :
    qualifiedToolKey mcpId name = qualifiedToolKey otherMcp otherName ↔ mcpId = otherMcp ∧ name = otherName := by
  constructor
  · intro same
    have texts := congrArg String.toList same
    rw [qualifiedToolKey_toList, qualifiedToolKey_toList] at texts
    obtain ⟨servers, names⟩ :=
      last_separator_injective (slash_not_encoded name) (slash_not_encoded otherName) texts
    exact ⟨encodeURIComponent_injective (String.toList_inj.mp servers),
      encodeURIComponent_injective (String.toList_inj.mp names)⟩
  · rintro ⟨rfl, rfl⟩
    rfl

theorem slash_mem_qualifiedToolKey (mcpId name : String) : '/' ∈ (qualifiedToolKey mcpId name).toList := by
  simp [qualifiedToolKey_toList]

theorem isSpace_encoded {c : Char} (encoded : isEncodedChar c = true) : isSpace c = false := by
  have small : c.toNat < 128 := by
    simp only [isEncodedChar, Bool.or_eq_true, beq_iff_eq] at encoded
    rcases encoded with plain | rfl
    · exact isUnreserved_ascii plain
    · decide
  have table : ∀ code : Fin 128, isEncodedChar (Char.ofNat code.val) = true →
      isSpace (Char.ofNat code.val) = false := by decide
  have blank := table ⟨c.toNat, small⟩
  simp only [Char.ofNat_toNat] at blank
  exact blank encoded

theorem trimmed_qualifiedToolKey (mcpId name : String) :
    trimmed (qualifiedToolKey mcpId name) = qualifiedToolKey mcpId name := by
  have plain : ∀ c ∈ (qualifiedToolKey mcpId name).toList, isSpace c = false := by
    intro c member
    rw [qualifiedToolKey_toList, List.mem_append, List.mem_cons] at member
    rcases member with server | rfl | tool
    · exact isSpace_encoded (encodeURIComponent_chars _ c server)
    · decide
    · exact isSpace_encoded (encodeURIComponent_chars _ c tool)
  rw [trimmed, trim_of_no_blank plain, String.ofList_toList]

end Lobu.Tools
