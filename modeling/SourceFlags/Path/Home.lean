import SourceFlags.Path.Basic

namespace SourceFlags.Path

open Text

-- `~` and `~/...` are filled in; a path that names a user stays as it is.
def expandHome (home s : String) : String :=
  match s.toList with
  | '~' :: rest =>
    if rest.head?.all (· == '/') then
      let base := (home.toList.reverse.dropWhile (· == '/')).reverse
      let full := base ++ rest
      if full.isEmpty then "/" else String.ofList full
    else s
  | _ => s

def fromHome? (home : String) (p : Path) : Option Path :=
  match p.lead, p.parts with
  | 0, ('~' :: user) :: rest =>
    let base := expandHome home (String.ofList ('~' :: user))
    if base.toList.head? == some '~' then none
    else
      let q := ofText base
      some ⟨q.lead, q.parts ++ rest⟩
  | _, _ => some p

example : expandHome "/h/" "~" = "/h" ∧ expandHome "/h" "~/a" = "/h/a" ∧ expandHome "/" "~" = "/" ∧
    expandHome "/h" "~u/a" = "~u/a" := by
  decide +kernel

end SourceFlags.Path
