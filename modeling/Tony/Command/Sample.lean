/-! A document that shows most of what the notation has. -/

namespace Tony.Command

def sample : List Char :=
  (String.join
    ["---\n",
      "# Service defaults. TODO: split per environment\n",
      "!service\n",
      "name: \"api-$[env.REGION]\"\n",
      "<<: .[defaults.base]\n",
      "port: 8080\n",
      "ratio: -0.75\n",
      "mask: 0x1F\n",
      "mode: 0o644\n",
      "enabled: true\n",
      "fallback: null\n",
      "owner: !user(admin, 'ops', 3)\n",
      "tags: [web, \x7btier: front\x7d]\n",
      "script: !literal\n",
      "|\n",
      "  echo \"hello\"\n",
      "  exit 0\n",
      "after: done\n"]).toList

end Tony.Command
