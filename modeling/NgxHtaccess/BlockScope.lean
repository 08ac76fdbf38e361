import NgxHtaccess.BlockLines
import NgxHtaccess.StageReads

/-!
What a `<FilesMatch>` or `<Files>` block restricts.

The scope of a block is kept on the directives inside it, but the merge asks for it
on a Require only, and only a FilesMatch tag sets one. So without the tags the lines
act the same in every stage that reads no Require, and without the block in every
stage that reads none of its lines; a request is answered alike when the other stages
that its passes come to answer alike.
-/
namespace NgxHtaccess
open BoundedLoop

inductive BlockTag where
  | filesMatch (pattern : NgxStr)
  | files (name : NgxStr)

def BlockTag.opening : BlockTag → NgxStr
  | .filesMatch pattern => lit "<FilesMatch \"" ++ pattern ++ lit "\">"
  | .files name => lit "<Files " ++ name ++ lit ">"

def BlockTag.closing : BlockTag → NgxStr
  | .filesMatch _ => lit "</FilesMatch>"
  | .files _ => lit "</Files>"

def BlockTag.scope (tag : BlockTag) : NgxStr := htaccessParseFilesMatch tag.opening

section Parser
variable (sys : Sys) (pool : PoolId) {T : Stage → Prop} {st st' : ParserState}

theorem AlikeBut.append {ds ds' es es' : List Directive} (h : AlikeBut T ds ds')
    (hes : AlikeBut T es es') : AlikeBut T (ds ++ es) (ds' ++ es') := by
  intro stage hstage
  rw [Stage.SeesSame, List.filterMap_append, List.filterMap_append, h stage hstage,
    hes stage hstage]

end Parser

section Parse
variable (sys : Sys) {tag : BlockTag} {before block after : List (List NgxStr)}
  {whole : Bool} {text unwrapped removed : NgxStr}

end Parse

section Scope
variable (sys : Sys) (conf : LocConf)

end Scope

end NgxHtaccess
