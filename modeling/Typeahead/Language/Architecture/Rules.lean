import Typeahead.Production

namespace Typeahead.Language.Architecture

/-! The rules of architecture descriptions. -/

/-- The rules with their alternatives.  A rule whose name starts with an underscore hands its
children to the rule that uses it. -/
def alternatives : List (String × List (List String)) := [
    ("structurizr_file", [["__structurizr_file_star_0"], []]),
    ("workspace", [["WORKSPACE", "EXTENDS", "STRING", "__workspace_star_1", "LBRACE",
        "workspace_body", "RBRACE"],
      ["WORKSPACE", "EXTENDS", "STRING", "LBRACE", "workspace_body", "RBRACE"],
      ["WORKSPACE", "__workspace_star_1", "LBRACE", "workspace_body", "RBRACE"],
      ["WORKSPACE", "LBRACE", "workspace_body", "RBRACE"]]),
    ("workspace_body", [["__workspace_body_star_2"], []]),
    ("_workspace_item", [["NL"], ["name_property"], ["description_property"], ["properties"],
      ["directive"], ["model"], ["views"], ["configuration"]]),
    ("name_property", [["NAME", "STRING"]]),
    ("description_property", [["DESCRIPTION", "STRING"]]),
    ("directive", [["IDENTIFIERS", "__directive_plus_3"], ["DOCS", "__directive_plus_3"],
      ["ADRS", "__directive_plus_3"]]),
    ("properties", [["PROPERTIES", "LBRACE", "__properties_star_4", "RBRACE"],
      ["PROPERTIES", "LBRACE", "RBRACE"]]),
    ("_pair_item", [["NL"], ["name_value"]]),
    ("name_value", [["_value", "__directive_plus_3"]]),
    ("_value", [["STRING"], ["ID"], ["NUMBER"]]),
    ("model", [["MODEL", "LBRACE", "model_body", "RBRACE"]]),
    ("model_body", [["__model_body_star_5"], []]),
    ("_model_item", [["NL"], ["element"], ["relationship"], ["enterprise"], ["group"],
      ["properties"]]),
    ("enterprise", [["ENTERPRISE", "STRING", "LBRACE", "model_body", "RBRACE"],
      ["ENTERPRISE", "LBRACE", "model_body", "RBRACE"]]),
    ("group", [["GROUP", "STRING", "LBRACE", "model_body", "RBRACE"]]),
    ("identifier", [["ID"]]),
    ("element", [["identifier", "EQUALS", "_element_kind"], ["_element_kind"]]),
    ("_element_kind", [["person"], ["software_system"], ["container"], ["component"],
      ["deployment_environment"], ["deployment_node"], ["infrastructure_node"],
      ["software_system_instance"], ["container_instance"]]),
    ("person", [["PERSON", "__workspace_star_1", "element_body"],
      ["PERSON", "__workspace_star_1"], ["PERSON", "element_body"], ["PERSON"]]),
    ("software_system", [["SOFTWARE_SYSTEM", "__workspace_star_1", "element_body"],
      ["SOFTWARE_SYSTEM", "__workspace_star_1"], ["SOFTWARE_SYSTEM", "element_body"],
      ["SOFTWARE_SYSTEM"]]),
    ("container", [["CONTAINER", "__workspace_star_1", "element_body"],
      ["CONTAINER", "__workspace_star_1"], ["CONTAINER", "element_body"], ["CONTAINER"]]),
    ("component", [["COMPONENT", "__workspace_star_1", "element_body"],
      ["COMPONENT", "__workspace_star_1"], ["COMPONENT", "element_body"], ["COMPONENT"]]),
    ("deployment_environment", [["DEPLOYMENT_ENVIRONMENT", "STRING", "element_body"],
      ["DEPLOYMENT_ENVIRONMENT", "STRING"]]),
    ("deployment_node", [["DEPLOYMENT_NODE", "__workspace_star_1", "element_body"],
      ["DEPLOYMENT_NODE", "__workspace_star_1"], ["DEPLOYMENT_NODE", "element_body"],
      ["DEPLOYMENT_NODE"]]),
    ("infrastructure_node", [["INFRASTRUCTURE_NODE", "__workspace_star_1", "element_body"],
      ["INFRASTRUCTURE_NODE", "__workspace_star_1"], ["INFRASTRUCTURE_NODE", "element_body"],
      ["INFRASTRUCTURE_NODE"]]),
    ("software_system_instance", [["SOFTWARE_SYSTEM_INSTANCE", "identifier",
        "__workspace_star_1", "element_body"],
      ["SOFTWARE_SYSTEM_INSTANCE", "identifier", "__workspace_star_1"],
      ["SOFTWARE_SYSTEM_INSTANCE", "identifier", "element_body"],
      ["SOFTWARE_SYSTEM_INSTANCE", "identifier"]]),
    ("container_instance", [["CONTAINER_INSTANCE", "identifier", "__workspace_star_1",
        "element_body"],
      ["CONTAINER_INSTANCE", "identifier", "__workspace_star_1"],
      ["CONTAINER_INSTANCE", "identifier", "element_body"],
      ["CONTAINER_INSTANCE", "identifier"]]),
    ("element_body", [["LBRACE", "__element_body_star_6", "RBRACE"], ["LBRACE", "RBRACE"]]),
    ("_element_item", [["NL"], ["element"], ["relationship"], ["group"], ["tags"], ["url"],
      ["technology"], ["description_property"], ["properties"], ["perspectives"]]),
    ("relationship", [["identifier", "ARROW", "identifier", "__workspace_star_1", "element_body"],
      ["identifier", "ARROW", "identifier", "__workspace_star_1"],
      ["identifier", "ARROW", "identifier", "element_body"],
      ["identifier", "ARROW", "identifier"],
      ["ARROW", "identifier", "__workspace_star_1", "element_body"],
      ["ARROW", "identifier", "__workspace_star_1"], ["ARROW", "identifier", "element_body"],
      ["ARROW", "identifier"]]),
    ("tags", [["TAGS", "__workspace_star_1"]]),
    ("url", [["URL", "_value"]]),
    ("technology", [["TECHNOLOGY", "STRING"]]),
    ("perspectives", [["PERSPECTIVES", "LBRACE", "__properties_star_4", "RBRACE"],
      ["PERSPECTIVES", "LBRACE", "RBRACE"]]),
    ("views", [["VIEWS", "LBRACE", "__views_star_7", "RBRACE"], ["VIEWS", "LBRACE", "RBRACE"]]),
    ("_views_item", [["NL"], ["system_landscape_view"], ["system_context_view"],
      ["container_view"], ["component_view"], ["dynamic_view"], ["deployment_view"],
      ["filtered_view"], ["styles"], ["theme"], ["themes"], ["branding"], ["properties"]]),
    ("system_landscape_view", [["SYSTEM_LANDSCAPE", "__workspace_star_1", "view_body"],
      ["SYSTEM_LANDSCAPE", "__workspace_star_1"], ["SYSTEM_LANDSCAPE", "view_body"],
      ["SYSTEM_LANDSCAPE"]]),
    ("system_context_view", [["SYSTEM_CONTEXT", "identifier", "__workspace_star_1", "view_body"],
      ["SYSTEM_CONTEXT", "identifier", "__workspace_star_1"],
      ["SYSTEM_CONTEXT", "identifier", "view_body"], ["SYSTEM_CONTEXT", "identifier"]]),
    ("container_view", [["CONTAINER", "identifier", "__workspace_star_1", "view_body"],
      ["CONTAINER", "identifier", "__workspace_star_1"],
      ["CONTAINER", "identifier", "view_body"], ["CONTAINER", "identifier"]]),
    ("component_view", [["COMPONENT", "identifier", "__workspace_star_1", "view_body"],
      ["COMPONENT", "identifier", "__workspace_star_1"],
      ["COMPONENT", "identifier", "view_body"], ["COMPONENT", "identifier"]]),
    ("dynamic_view", [["DYNAMIC", "identifier", "__workspace_star_1", "view_body"],
      ["DYNAMIC", "identifier", "__workspace_star_1"], ["DYNAMIC", "identifier", "view_body"],
      ["DYNAMIC", "identifier"], ["DYNAMIC", "WILDCARD", "__workspace_star_1", "view_body"],
      ["DYNAMIC", "WILDCARD", "__workspace_star_1"], ["DYNAMIC", "WILDCARD", "view_body"],
      ["DYNAMIC", "WILDCARD"]]),
    ("deployment_view", [["DEPLOYMENT", "identifier", "STRING", "__workspace_star_1", "view_body"],
      ["DEPLOYMENT", "identifier", "STRING", "__workspace_star_1"],
      ["DEPLOYMENT", "identifier", "STRING", "view_body"],
      ["DEPLOYMENT", "identifier", "STRING"],
      ["DEPLOYMENT", "WILDCARD", "STRING", "__workspace_star_1", "view_body"],
      ["DEPLOYMENT", "WILDCARD", "STRING", "__workspace_star_1"],
      ["DEPLOYMENT", "WILDCARD", "STRING", "view_body"], ["DEPLOYMENT", "WILDCARD", "STRING"]]),
    ("filtered_view", [["FILTERED", "STRING", "INCLUDE", "STRING", "__workspace_star_1",
        "view_body"],
      ["FILTERED", "STRING", "INCLUDE", "STRING", "__workspace_star_1"],
      ["FILTERED", "STRING", "INCLUDE", "STRING", "view_body"],
      ["FILTERED", "STRING", "INCLUDE", "STRING"],
      ["FILTERED", "STRING", "EXCLUDE", "STRING", "__workspace_star_1", "view_body"],
      ["FILTERED", "STRING", "EXCLUDE", "STRING", "__workspace_star_1"],
      ["FILTERED", "STRING", "EXCLUDE", "STRING", "view_body"],
      ["FILTERED", "STRING", "EXCLUDE", "STRING"]]),
    ("view_body", [["LBRACE", "__view_body_star_8", "RBRACE"], ["LBRACE", "RBRACE"]]),
    ("_view_item", [["NL"], ["include"], ["exclude"], ["auto_layout"], ["title"],
      ["description_property"], ["animation"], ["properties"], ["view_relationship"]]),
    ("include", [["INCLUDE", "__include_plus_9"]]),
    ("exclude", [["EXCLUDE", "__include_plus_9"]]),
    ("_view_expression", [["identifier"], ["WILDCARD"], ["STRING"]]),
    ("auto_layout", [["AUTOLAYOUT", "ID", "NUMBER", "NUMBER"], ["AUTOLAYOUT", "ID", "NUMBER"],
      ["AUTOLAYOUT", "ID"], ["AUTOLAYOUT"]]),
    ("title", [["TITLE", "STRING"]]),
    ("animation", [["ANIMATION", "LBRACE", "__animation_star_10", "RBRACE"],
      ["ANIMATION", "LBRACE", "RBRACE"]]),
    ("view_relationship", [["identifier", "ARROW", "identifier", "__workspace_star_1"],
      ["identifier", "ARROW", "identifier"]]),
    ("styles", [["STYLES", "LBRACE", "__styles_star_11", "RBRACE"],
      ["STYLES", "LBRACE", "RBRACE"]]),
    ("_styles_item", [["NL"], ["element_style"], ["relationship_style"]]),
    ("element_style", [["ELEMENT", "STRING", "LBRACE", "__element_style_star_12", "RBRACE"],
      ["ELEMENT", "STRING", "LBRACE", "RBRACE"]]),
    ("relationship_style", [["RELATIONSHIP", "STRING", "LBRACE", "__element_style_star_12",
        "RBRACE"],
      ["RELATIONSHIP", "STRING", "LBRACE", "RBRACE"]]),
    ("_style_item", [["NL"], ["style_property"]]),
    ("style_property", [["ID", "__style_property_star_13"], ["ID"],
      ["DESCRIPTION", "__style_property_star_13"], ["DESCRIPTION"]]),
    ("theme", [["THEME", "_value"]]),
    ("themes", [["THEMES", "__directive_plus_3"]]),
    ("branding", [["BRANDING", "LBRACE", "__properties_star_4", "RBRACE"],
      ["BRANDING", "LBRACE", "RBRACE"]]),
    ("configuration", [["CONFIGURATION", "LBRACE", "__configuration_star_14", "RBRACE"],
      ["CONFIGURATION", "LBRACE", "RBRACE"]]),
    ("_configuration_item", [["NL"], ["users"], ["properties"]]),
    ("users", [["USERS", "LBRACE", "__properties_star_4", "RBRACE"],
      ["USERS", "LBRACE", "RBRACE"]]),
    ("__structurizr_file_star_0", [["workspace"], ["NL"],
      ["__structurizr_file_star_0", "workspace"], ["__structurizr_file_star_0", "NL"]]),
    ("__workspace_star_1", [["STRING"], ["__workspace_star_1", "STRING"]]),
    ("__workspace_body_star_2", [["_workspace_item"],
      ["__workspace_body_star_2", "_workspace_item"]]),
    ("__directive_plus_3", [["_value"], ["__directive_plus_3", "_value"]]),
    ("__properties_star_4", [["_pair_item"], ["__properties_star_4", "_pair_item"]]),
    ("__model_body_star_5", [["_model_item"], ["__model_body_star_5", "_model_item"]]),
    ("__element_body_star_6", [["_element_item"], ["__element_body_star_6", "_element_item"]]),
    ("__views_star_7", [["_views_item"], ["__views_star_7", "_views_item"]]),
    ("__view_body_star_8", [["_view_item"], ["__view_body_star_8", "_view_item"]]),
    ("__include_plus_9", [["_view_expression"], ["__include_plus_9", "_view_expression"]]),
    ("__animation_star_10", [["identifier"], ["NL"], ["__animation_star_10", "identifier"],
      ["__animation_star_10", "NL"]]),
    ("__styles_star_11", [["_styles_item"], ["__styles_star_11", "_styles_item"]]),
    ("__element_style_star_12", [["_style_item"], ["__element_style_star_12", "_style_item"]]),
    ("__style_property_star_13", [["STRING"], ["ID"], ["NUMBER"], ["HEX_COLOR"],
      ["__style_property_star_13", "STRING"], ["__style_property_star_13", "ID"],
      ["__style_property_star_13", "NUMBER"], ["__style_property_star_13", "HEX_COLOR"]]),
    ("__configuration_star_14", [["_configuration_item"],
      ["__configuration_star_14", "_configuration_item"]])]

def productions : List Production := Production.ofAlternatives alternatives

def startRule : String := "structurizr_file"

end Typeahead.Language.Architecture
